/-
# EmbeddedHttp.Proofs.Request.Truncating -- a buffer is a list that is cut at a limit

What can be observed of a buffer is its content and what each write says.  Both are those of a
plain list that takes octets up to a limit and drops the others (`Edit.truncating`): capacities,
how they double, jump and are clamped, do not show (`Buffer.editAll_truncates`).

The invariant is `Buffer.Sound`: the content is shorter than the capacity, which is at most the
limit plus one.  A write that would not fit therefore grows the capacity to exactly the limit
plus one, and what it computes on the way is never negative.  Computed in 64-bit numbers, with
every sum, difference and slice checked (`Buffer.write?`), a write comes to the same.
-/
import EmbeddedHttp.Proofs.Message.KeptHeads
import EmbeddedHttp.Proofs.Request.Room

namespace EmbeddedHttp

set_option autoImplicit false

open Rereader (difference? difference?_of_le)

/-! ## 64-bit numbers -/

namespace Word

/-- The sum of two numbers, unless it leaves the range. -/
def sum? (a b : Nat) : Option Nat :=
  if a + b < Bytes.wordBound then some (a + b) else none

/-- A number brought between two bounds, which have to be in order. -/
def clamp? (n least most : Nat) : Option Nat :=
  if least ≤ most then some (max least (min n most)) else none

/-- Twice a number, or the greatest number when twice leaves the range. -/
def twice (n : Nat) : Nat := min (n * 2) (Bytes.wordBound - 1)

/-- The first octets of a string, which has to have so many. -/
def front? (bytes : Bytes) (n : Nat) : Option Bytes :=
  if n ≤ bytes.length then some (bytes.take n) else none

theorem sum?_of_lt {a b : Nat} (word : a + b < Bytes.wordBound) : sum? a b = some (a + b) :=
  if_pos word

theorem sum?_of_le {a b : Nat} (beyond : Bytes.wordBound ≤ a + b) : sum? a b = none :=
  if_neg (Nat.not_lt.2 beyond)

end Word

namespace Buffer

/-! ## Buffers with checked numbers -/

/-- `new`, computed in 64-bit numbers. -/
def new? (capacity limit : Nat) : Option Buffer := do
  let limit := if limit = 0 then defaultLimit else limit
  let most ← Word.sum? limit 1
  let capacity ← Word.clamp? capacity 1 most
  some ⟨[], capacity, limit⟩

/-- The capacity that `needed` octets call for, before the limit is looked at. -/
def enough? (buffer : Buffer) (needed : Nat) : Option Nat :=
  if Word.twice buffer.capacity ≤ needed then Word.sum? needed 1
  else some (Word.twice buffer.capacity)

/-- A capacity clamped to the limit plus one. -/
def limited? (buffer : Buffer) (enough : Nat) : Option Nat :=
  if buffer.limit < enough then Word.sum? buffer.limit 1 else some enough

/-- `grown`, computed in 64-bit numbers; the difference is what storage is reserved for. -/
def grown? (buffer : Buffer) (needed : Nat) : Option Nat :=
  if needed < buffer.capacity then some buffer.capacity
  else do
    let enough ← buffer.enough? needed
    let capacity ← buffer.limited? enough
    let _ ← difference? capacity buffer.size
    some capacity

/-- `write`, computed in 64-bit numbers. -/
def write? (buffer : Buffer) (bytes : Bytes) : Option (Buffer × Option Nat) := do
  let needed ← Word.sum? buffer.size bytes.length
  let capacity ← buffer.grown? needed
  if needed < capacity then some (⟨buffer.data ++ bytes, capacity, buffer.limit⟩, none)
  else do
    let room ← difference? capacity buffer.size
    let fits ← difference? room 1
    let front ← Word.front? bytes fits
    some (⟨buffer.data ++ front, capacity, buffer.limit⟩, some fits)

/-! ## The invariant -/

variable {buffer : Buffer}

/-- What holds of a buffer in use. -/
structure Sound (buffer : Buffer) : Prop where
  room : buffer.size < buffer.capacity
  bounded : buffer.capacity ≤ buffer.limit + 1

theorem sound_new (capacity limit : Nat) : (new capacity limit).Sound := by
  constructor
  · simp only [new, size, List.length_nil]
    omega
  · exact (bounded_new capacity limit).capacity

theorem Sound.clear (sound : buffer.Sound) : buffer.clear.Sound :=
  ⟨Nat.lt_of_le_of_lt (Nat.zero_le _) sound.room, sound.bounded⟩

theorem Sound.size_le (sound : buffer.Sound) : buffer.size ≤ buffer.limit := by
  have := sound.room
  have := sound.bounded
  omega

/-- What is needed beyond the limit makes the capacity as large as it can be. -/
theorem Sound.grown_of_lt (sound : buffer.Sound) {needed : Nat} (beyond : buffer.limit < needed) :
    buffer.grown needed = buffer.limit + 1 := by
  have := sound.bounded
  simp only [grown]
  rw [if_neg (by omega)]
  split <;> rw [if_pos (by omega)]

theorem Sound.grown_le (sound : buffer.Sound) (needed : Nat) :
    buffer.grown needed ≤ buffer.limit + 1 :=
  Bounded.grown ⟨sound.size_le, sound.bounded⟩ needed

theorem Sound.le_grown (sound : buffer.Sound) (needed : Nat) :
    buffer.capacity ≤ buffer.grown needed := by
  have := sound.bounded
  simp only [grown]
  split
  · exact Nat.le_refl _
  · split <;> split <;> omega

/-- What a write comes to: the bytes as a whole, or the front of them that fits. -/
theorem Sound.write_eq (sound : buffer.Sound) (bytes : Bytes) :
    buffer.write bytes =
      if buffer.size + bytes.length ≤ buffer.limit then
        (⟨buffer.data ++ bytes, buffer.grown (buffer.size + bytes.length), buffer.limit⟩, none)
      else
        (⟨buffer.data ++ bytes.take (buffer.limit - buffer.size), buffer.limit + 1, buffer.limit⟩,
          some (buffer.limit - buffer.size)) := by
  split
  · rename_i fits
    simp only [write, if_pos (lt_grown fits)]
  · rename_i crosses
    have full := sound.grown_of_lt (Nat.not_le.1 crosses)
    have left : buffer.limit + 1 - buffer.size - 1 = buffer.limit - buffer.size := by omega
    simp only [write, full, left]
    rw [if_neg (by omega)]

theorem Sound.write (sound : buffer.Sound) (bytes : Bytes) : (buffer.write bytes).1.Sound := by
  have := sound.size_le
  rw [sound.write_eq]
  split
  · rename_i fits
    constructor
    · simp only [size, List.length_append]
      exact lt_grown fits
    · exact sound.grown_le _
  · constructor
    · simp only [size, List.length_append, List.length_take] at *
      omega
    · exact Nat.le_refl _

theorem Sound.write_limit (sound : buffer.Sound) (bytes : Bytes) :
    (buffer.write bytes).1.limit = buffer.limit := by
  rw [sound.write_eq]
  split <;> rfl

theorem Sound.write_capacity (sound : buffer.Sound) (bytes : Bytes) :
    (buffer.write bytes).1.capacity = buffer.grown (buffer.size + bytes.length) := by
  rw [sound.write_eq]
  split
  · rfl
  · rename_i crosses
    rw [sound.grown_of_lt (Nat.not_le.1 crosses)]

/-! ## Checked numbers come to the same -/

/-- A buffer can be made when a capacity of the limit plus one is in range. -/
theorem new?_eq (capacity limit : Nat) :
    new? capacity limit =
      if limit + 1 < Bytes.wordBound then some (new capacity limit) else none := by
  have default : defaultLimit + 1 < Bytes.wordBound := by decide
  simp only [new?, new, Word.sum?, Word.clamp?]
  by_cases zero : limit = 0
  · subst zero
    simp [default, show (0 : Nat) + 1 < Bytes.wordBound by decide]
  · by_cases word : limit + 1 < Bytes.wordBound <;> simp [zero, word]

theorem Sound.lt_grown (sound : buffer.Sound) (more : Nat) :
    buffer.size < buffer.grown (buffer.size + more) :=
  Nat.lt_of_lt_of_le sound.room (sound.le_grown _)

/-- Doubling up to the greatest number instead of beyond it comes to the same capacity. -/
theorem grown_twice (word : buffer.limit + 1 < Bytes.wordBound) {needed : Nat}
    (lacks : buffer.capacity ≤ needed) :
    buffer.grown needed =
      if Word.twice buffer.capacity ≤ needed then min (needed + 1) (buffer.limit + 1)
      else min (Word.twice buffer.capacity) (buffer.limit + 1) := by
  simp only [grown, Word.twice]
  grind

theorem limited?_eq (word : buffer.limit + 1 < Bytes.wordBound) (enough : Nat) :
    buffer.limited? enough = some (min enough (buffer.limit + 1)) := by
  rw [limited?, Word.sum?_of_lt word]
  split <;> congr 1 <;> omega

/-- Growth computes nothing out of range as long as one more than is needed is in range. -/
theorem Sound.grown?_eq (sound : buffer.Sound) (word : buffer.limit + 1 < Bytes.wordBound)
    (more : Nat) :
    buffer.grown? (buffer.size + more) =
      if buffer.size + more + 1 < Bytes.wordBound then some (buffer.grown (buffer.size + more))
      else none := by
  have := sound.bounded
  have reserve := difference?_of_le (Nat.le_of_lt (sound.lt_grown more))
  generalize buffer.size + more = needed at reserve ⊢
  by_cases held : needed < buffer.capacity
  · rw [grown?, if_pos held, grown, if_pos held, if_pos (by omega)]
  rw [grown_twice word (Nat.not_lt.1 held)] at reserve ⊢
  have greatest : Word.twice buffer.capacity ≤ Bytes.wordBound - 1 := Nat.min_le_right _ _
  rw [grown?, if_neg held, enough?]
  by_cases doubled : Word.twice buffer.capacity ≤ needed
  · simp only [if_pos doubled] at reserve ⊢
    by_cases inRange : needed + 1 < Bytes.wordBound
    · simp only [Word.sum?_of_lt inRange, limited?_eq word, reserve, if_pos inRange,
        Option.bind_eq_bind, Option.bind_some]
    · simp [Word.sum?_of_le (Nat.not_lt.1 inRange), inRange]
  · have inRange : needed + 1 < Bytes.wordBound := by omega
    simp only [if_neg doubled] at reserve ⊢
    simp only [limited?_eq word, reserve, if_pos inRange, Option.bind_eq_bind, Option.bind_some]

/-- **A write computes nothing out of range as long as one more than is needed is in range**, and
comes to the same then. -/
theorem Sound.write?_eq (sound : buffer.Sound) (word : buffer.limit + 1 < Bytes.wordBound)
    (bytes : Bytes) :
    buffer.write? bytes =
      if buffer.size + bytes.length + 1 < Bytes.wordBound then some (buffer.write bytes)
      else none := by
  have grows := sound.grown?_eq word bytes.length
  have room := sound.lt_grown bytes.length
  have most := sound.grown_le (buffer.size + bytes.length)
  by_cases inRange : buffer.size + bytes.length + 1 < Bytes.wordBound
  · rw [if_pos inRange] at grows ⊢
    have needed := @Word.sum?_of_lt buffer.size bytes.length (by omega)
    have spare := difference?_of_le (Nat.le_of_lt room)
    have fits := difference?_of_le (Nat.sub_pos_of_lt room)
    simp only [write?, needed, grows, spare, fits, Option.bind_eq_bind, Option.bind_some,
      Buffer.write]
    split
    · rfl
    · rw [Word.front?, if_pos (by omega), Option.bind_some]
  · rw [if_neg inRange] at grows ⊢
    rw [write?]
    by_cases needed : buffer.size + bytes.length < Bytes.wordBound
    · simp [Word.sum?_of_lt needed, grows]
    · simp [Word.sum?_of_le (Nat.not_lt.1 needed)]

/-! ## Edits -/

/-- What is done with a buffer. -/
inductive Edit where
  | write (bytes : Bytes)
  | clear
  deriving DecidableEq, Repr

/-- Edits in order: what they leave, and what each of them says. -/
def Edit.all {σ : Type} (edit : σ → Edit → σ × Option Nat) : σ → List Edit → σ × List (Option Nat)
  | state, [] => (state, [])
  | state, first :: rest =>
      let done := edit state first
      let later := all edit done.1 rest
      (later.1, done.2 :: later.2)

/-- What is related by every edit is related by all of them. -/
theorem Edit.all_related {σ τ : Type} {one : σ → Edit → σ × Option Nat}
    {other : τ → Edit → τ × Option Nat} {related : σ → τ → Prop}
    (step : ∀ s t edit, related s t →
      related (one s edit).1 (other t edit).1 ∧ (one s edit).2 = (other t edit).2)
    {s : σ} {t : τ} (start : related s t) (edits : List Edit) :
    related (all one s edits).1 (all other t edits).1 ∧
      (all one s edits).2 = (all other t edits).2 := by
  induction edits generalizing s t with
  | nil => exact ⟨start, rfl⟩
  | cons first rest ih =>
      obtain ⟨next, alike⟩ := step s t first start
      obtain ⟨last, others⟩ := ih next
      refine ⟨last, ?_⟩
      rw [Edit.all, Edit.all, alike, others]

/-- An edit of a buffer. -/
def edit (buffer : Buffer) : Edit → Buffer × Option Nat
  | .write bytes => buffer.write bytes
  | .clear => (buffer.clear, none)

/-- The same edit of a list that takes octets up to `most` of them: of a string that does not
fit it takes the front that does, and says how long that is. -/
def Edit.truncating (most : Nat) (content : Bytes) : Edit → Bytes × Option Nat
  | .write bytes =>
      if content.length + bytes.length ≤ most then (content ++ bytes, none)
      else (content ++ bytes.take (most - content.length), some (most - content.length))
  | .clear => ([], none)

/-- A buffer in use with this limit and content. -/
structure Holding (most : Nat) (buffer : Buffer) (content : Bytes) : Prop where
  sound : buffer.Sound
  limit : buffer.limit = most
  data : buffer.data = content

theorem Holding.edit {most : Nat} {content : Bytes} (holding : Holding most buffer content)
    (edit : Edit) :
    Holding most (buffer.edit edit).1 (Edit.truncating most content edit).1 ∧
      (buffer.edit edit).2 = (Edit.truncating most content edit).2 := by
  obtain ⟨sound, rfl, rfl⟩ := holding
  cases edit with
  | clear => exact ⟨⟨sound.clear, rfl, rfl⟩, rfl⟩
  | write bytes =>
      have same : ((buffer.write bytes).1.data, (buffer.write bytes).2) =
          Edit.truncating buffer.limit buffer.data (.write bytes) := by
        rw [sound.write_eq, Edit.truncating, ← size]
        split <;> rfl
      rw [← same]
      exact ⟨⟨sound.write bytes, sound.write_limit bytes, rfl⟩, rfl⟩

theorem Sound.edit_capacity (sound : buffer.Sound) (edit : Edit) :
    buffer.capacity ≤ (buffer.edit edit).1.capacity := by
  cases edit with
  | clear => exact Nat.le_refl _
  | write bytes =>
      show buffer.capacity ≤ (buffer.write bytes).1.capacity
      rw [sound.write_capacity]
      exact sound.le_grown _

/-- What is cut off is not nothing. -/
theorem Sound.lt_of_write (sound : buffer.Sound) {bytes : Bytes} {n : Nat}
    (cut : (buffer.write bytes).2 = some n) : n < bytes.length := by
  have := sound.size_le
  rw [sound.write_eq] at cut
  split at cut
  · cases cut
  · cases cut
    omega

/-- What is right of a buffer with this limit and content, whatever was done with it. -/
structure InUse (most : Nat) (content : Bytes) (buffer : Buffer) : Prop where
  data : buffer.data = content
  limit : buffer.limit = most
  room : buffer.size < buffer.capacity
  positive : 1 ≤ buffer.capacity
  bounded : buffer.capacity ≤ most + 1
  grows : ∀ edit, buffer.capacity ≤ (buffer.edit edit).1.capacity
  /-- Neither what growth reserves nor what truncation keeps is a negative difference. -/
  differences : ∀ bytes : Bytes, buffer.size + 1 ≤ buffer.grown (buffer.size + bytes.length)
  /-- What truncation keeps is a front of what was to be written. -/
  front : ∀ bytes n, (buffer.write bytes).2 = some n → n < bytes.length
  /-- In 64-bit numbers a write comes to the same, unless one more than is needed is none. -/
  checked : ∀ bytes : Bytes, buffer.write? bytes =
    if buffer.size + bytes.length + 1 < Bytes.wordBound then some (buffer.write bytes) else none

/-- **A buffer is a list that is cut at a limit.**  Whatever is done with a buffer, its content
and what every write says are those of such a list, its capacity stays within bounds and never
shrinks, and no difference is negative. -/
theorem editAll_truncates {limit : Nat} (word : limit + 1 < Bytes.wordBound) (capacity : Nat)
    (edits : List Edit) :
    let most := if limit = 0 then defaultLimit else limit
    let buffer := Edit.all edit (new capacity limit) edits
    let content := Edit.all (Edit.truncating most) [] edits
    new? capacity limit = some (new capacity limit) ∧ buffer.2 = content.2 ∧
      InUse most content.1 buffer.1 := by
  intro most buffer content
  have start : Holding most (new capacity limit) [] := ⟨sound_new capacity limit, rfl, rfl⟩
  obtain ⟨⟨sound, same, data⟩, told⟩ :
      Holding most buffer.1 content.1 ∧ buffer.2 = content.2 :=
    Edit.all_related (fun _ _ edit holding => holding.edit edit) start edits
  have inRange : buffer.1.limit + 1 < Bytes.wordBound := by
    have default : defaultLimit + 1 < Bytes.wordBound := by decide
    rw [same]
    show (if limit = 0 then defaultLimit else limit) + 1 < Bytes.wordBound
    split
    · exact default
    · exact word
  refine ⟨by rw [new?_eq, if_pos word], told, ?_⟩
  exact {
    data := data
    limit := same
    room := sound.room
    positive := Nat.lt_of_le_of_lt (Nat.zero_le _) sound.room
    bounded := same ▸ sound.bounded
    grows := sound.edit_capacity
    differences := fun bytes => sound.lt_grown bytes.length
    front := fun bytes n cut => sound.lt_of_write cut
    checked := sound.write?_eq inRange }

/-- A buffer that is filled to its limit, and then cuts what is written in the middle. -/
theorem editAll_truncates_full :
    let edits : List Edit := [.write (Bytes.ofAscii "overfull"), .clear,
      .write (Bytes.ofAscii "exactly"), .write (Bytes.ofAscii "-ten"), .write (Bytes.ofAscii "!")]
    let buffer := Edit.all edit (new 2 10) edits
    10 + 1 < Bytes.wordBound ∧ buffer.2 = [none, none, none, some 3, some 0] ∧
      buffer.1.capacity = 11 ∧ InUse 10 (Bytes.ofAscii "exactly-te") buffer.1 := by
  intro edits buffer
  have word : 10 + 1 < Bytes.wordBound := by decide
  exact ⟨word, by decide, by decide, (editAll_truncates word 2 edits).2.2⟩

end Buffer

end EmbeddedHttp
