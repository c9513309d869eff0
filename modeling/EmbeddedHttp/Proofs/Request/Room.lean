/-
# EmbeddedHttp.Proofs.Request.Room -- what fits into buffers and bodies

A buffer takes every write that keeps within its limit (`Buffer.write_fits`).  A body
therefore takes fragments as long as it stays within the limit on bodies, in memory
and spooled alike, and its content is what was written (`Body.write_within`).  The one
thing that can be missing is the place: a body in memory needs a limit whose successor
is a 64-bit number (`Body.forLength?_eq_none`).
-/
import EmbeddedHttp.Request.Body

namespace EmbeddedHttp

set_option autoImplicit false

namespace Buffer

theorem lt_grown {buffer : Buffer} {needed : Nat} (fits : needed ≤ buffer.limit) :
    needed < buffer.grown needed := by
  simp only [grown]
  split
  · assumption
  · split <;> split <;> omega

/-- What keeps within the limit is stored as a whole. -/
theorem write_fits (buffer : Buffer) (bytes : Bytes)
    (fits : buffer.size + bytes.length ≤ buffer.limit) :
    ∃ capacity, buffer.write bytes = (⟨buffer.data ++ bytes, capacity, buffer.limit⟩, none) := by
  refine ⟨buffer.grown (buffer.size + bytes.length), ?_⟩
  simp only [write, lt_grown fits, if_true]

/-- What is stored without excess is stored as a whole. -/
theorem write_whole {buffer : Buffer} {bytes : Bytes} (whole : (buffer.write bytes).2 = none) :
    (buffer.write bytes).1.data = buffer.data ++ bytes := by
  simp only [write] at whole ⊢
  split at whole
  · rename_i within
    rw [if_pos within]
  · cases whole

theorem le_new_limit (capacity limit : Nat) : limit ≤ (new capacity limit).limit := by
  simp only [new]
  split <;> omega

@[simp] theorem new_data (capacity limit : Nat) : (new capacity limit).data = [] := rfl

/-- A buffer in use keeps within its limit, and so does its capacity but for one. -/
structure Bounded (buffer : Buffer) : Prop where
  size : buffer.size ≤ buffer.limit
  capacity : buffer.capacity ≤ buffer.limit + 1

theorem bounded_new (capacity limit : Nat) : (new capacity limit).Bounded := by
  constructor
  · exact Nat.zero_le _
  · simp only [new]
    omega

theorem Bounded.clear {buffer : Buffer} (bounded : buffer.Bounded) : buffer.clear.Bounded :=
  ⟨Nat.zero_le _, bounded.capacity⟩

theorem Bounded.grown {buffer : Buffer} (bounded : buffer.Bounded) (needed : Nat) :
    buffer.grown needed ≤ buffer.limit + 1 := by
  have := bounded.capacity
  simp only [Buffer.grown]
  split
  · assumption
  · split <;> split <;> omega

/-- A write that keeps within the limit is stored as a whole, and the buffer stays bounded. -/
theorem Bounded.write_fits {buffer : Buffer} (bounded : buffer.Bounded) {bytes : Bytes}
    (fits : buffer.size + bytes.length ≤ buffer.limit) :
    ∃ next, buffer.write bytes = (next, none) ∧ next.data = buffer.data ++ bytes ∧
      next.limit = buffer.limit ∧ next.Bounded := by
  have room := lt_grown fits
  refine ⟨⟨buffer.data ++ bytes, buffer.grown (buffer.size + bytes.length), buffer.limit⟩, ?_,
    rfl, rfl, ?_, bounded.grown _⟩
  · simp only [write, room, if_true]
  · show (buffer.data ++ bytes).length ≤ buffer.limit
    rw [List.length_append]
    exact fits

/-- A write that crosses the limit is not stored as a whole. -/
theorem Bounded.write_crosses {buffer : Buffer} (bounded : buffer.Bounded) {bytes : Bytes}
    (crosses : buffer.limit < buffer.size + bytes.length) :
    (buffer.write bytes).2.isSome = true := by
  have := bounded.grown (buffer.size + bytes.length)
  have full : ¬ buffer.size + bytes.length < buffer.grown (buffer.size + bytes.length) := by omega
  simp only [write, full, if_false, Option.isSome_some]

end Buffer

namespace Body

/-- The body can still grow to `most` octets: in memory, its buffer allows for them. -/
def HasRoom (most : Nat) : Body → Prop
  | .memory buffer => most ≤ buffer.limit
  | .spooled _ => True

/-- A place for a body is missing exactly when it would be in memory under the greatest
limit. -/
theorem forLength?_eq_none {declared : Option Nat} {threshold limit : Nat} :
    forLength? declared threshold limit = none ↔
      Bytes.wordBound ≤ limit + 1 ∧ ∀ length, declared = some length → length ≤ threshold := by
  cases declared with
  | none =>
      simp only [forLength?]
      split <;> simp <;> omega
  | some length =>
      simp only [forLength?]
      by_cases large : threshold < length
      · simp only [large, if_true, reduceCtorEq, false_iff, not_and]
        intro _ bounded
        have := bounded length rfl
        omega
      · simp only [large, if_false]
        split <;> simp <;> omega

/-- A new body is empty and has room up to its limit. -/
theorem forLength?_room {declared : Option Nat} {threshold limit : Nat} {body : Body}
    (made : forLength? declared threshold limit = some body) :
    body.content = [] ∧ body.HasRoom limit := by
  have inMemory : ∀ room, (if limit + 1 < Bytes.wordBound
      then some (Body.memory (Buffer.new room limit)) else none) = some body →
      body.content = [] ∧ body.HasRoom limit := by
    intro room made
    split at made
    · rw [← Option.some.inj made]
      exact ⟨rfl, Buffer.le_new_limit room limit⟩
    · cases made
  cases declared with
  | none => exact inMemory _ made
  | some length =>
      simp only [forLength?] at made
      split at made
      · rw [← Option.some.inj made]
        exact ⟨rfl, trivial⟩
      · exact inMemory _ made

/-- A new body is spooled from the start if it is declared larger than the threshold. -/
theorem forLength?_isSpooled {declared : Option Nat} {threshold limit : Nat} {body : Body}
    (made : forLength? declared threshold limit = some body) :
    body.isSpooled = declared.any (threshold < ·) := by
  have inMemory : ∀ room, (if limit + 1 < Bytes.wordBound
      then some (Body.memory (Buffer.new room limit)) else none) = some body →
      body.isSpooled = false := by
    intro room made
    split at made
    · rw [← Option.some.inj made]
      rfl
    · cases made
  cases declared with
  | none => exact inMemory _ made
  | some length =>
      simp only [forLength?] at made
      split at made
      · rename_i large
        rw [← Option.some.inj made]
        simp [isSpooled, large]
      · rename_i small
        rw [inMemory _ made]
        simp [small]

theorem spill_content (body : Body) (more threshold : Nat) :
    (body.spill more threshold).content = body.content := by
  cases body with
  | memory buffer => simp only [spill]; split <;> rfl
  | spooled content => rfl

theorem spill_room {most : Nat} {body : Body} (room : body.HasRoom most) (more threshold : Nat) :
    (body.spill more threshold).HasRoom most := by
  cases body with
  | memory buffer =>
      simp only [spill]
      split
      · exact trivial
      · exact room
  | spooled content => exact trivial

/-- **A fragment that keeps within the limit is appended, wherever the body is kept.** -/
theorem write_within {most : Nat} {body : Body} (room : body.HasRoom most) (data : Bytes)
    (fits : body.size + data.length ≤ most) (threshold : Nat) :
    ∃ next, body.write data threshold = (next, none) ∧
      next.content = body.content ++ data ∧ next.HasRoom most := by
  have kept := spill_content body data.length threshold
  have roomy := spill_room room data.length threshold
  rw [size, ← kept] at fits
  rw [← kept]
  cases spilled : body.spill data.length threshold with
  | memory buffer =>
      rw [spilled] at fits roomy
      obtain ⟨capacity, written⟩ := Buffer.write_fits buffer data
        (Nat.le_trans fits roomy)
      refine ⟨.memory ⟨buffer.data ++ data, capacity, buffer.limit⟩, ?_, rfl, roomy⟩
      simp only [write, spilled, written]
  | spooled content =>
      refine ⟨.spooled (content ++ data), ?_, rfl, trivial⟩
      simp only [write, spilled]

/-- A body is spooled once it grows past the threshold, and stays so. -/
theorem write_isSpooled (body : Body) (data : Bytes) (threshold : Nat) :
    (body.write data threshold).1.isSpooled =
      (body.isSpooled || decide (threshold < body.size + data.length)) := by
  cases body with
  | spooled content => rfl
  | memory buffer =>
      have inBuffer : (Body.memory buffer).size = buffer.size := rfl
      rw [inBuffer]
      by_cases large : threshold < buffer.size + data.length
      · simp [write, spill, large, isSpooled]
      · rcases written : buffer.write data with ⟨next, excess⟩
        cases excess <;> simp [write, spill, large, written, isSpooled]

end Body

end EmbeddedHttp
