/-
# EmbeddedHttp.Response.Outbox -- octets waiting to go out

Segments are queued whole and leave in order.  A socket may take any part of what
it is offered, so a cursor is moved over what was taken, within a segment or across
several.  The state of an outbox carries that its cursor stands where its counts say.
Writing goes in turns (`Flush`): offer the first segments, look at the
answer, wait for readiness when the socket cannot take anything.  A file goes out
the same way (`Transfer`), straight from its position.
-/
import EmbeddedHttp.Response.Framing

namespace EmbeddedHttp

set_option autoImplicit false

namespace Outbox

/-- A cursor stands before an octet of a segment, or behind the last segment. -/
def Inside (segments : List Bytes) (index offset : Nat) : Prop :=
  index ≤ segments.length ∧ match segments.drop index with
    | [] => offset = 0
    | segment :: _ => offset < segment.length

end Outbox

/-- Segments in the order in which they go out, and a cursor that says how far they are out:
`index` of them whole, and `offset` octets of the next one.  Segments are only added. -/
structure Outbox where
  segments : List Bytes
  index : Nat
  offset : Nat
  /-- How many octets were ever queued. -/
  total : Nat
  /-- How many of them are out. -/
  sent : Nat
  proper : ∀ segment ∈ segments, segment ≠ []
  counted : total = segments.flatten.length
  reached : sent = (segments.take index).flatten.length + offset
  inside : Outbox.Inside segments index offset
  deriving DecidableEq, Repr

namespace Outbox

/-- The most segments in one vectored write. -/
def maxSlices : Nat := 64

/-- What ends a chunked body. -/
def lastChunk : Bytes := Bytes.ofAscii "0\r\n\r\n"

/-- Nothing queued. -/
def empty : Outbox where
  segments := []
  index := 0
  offset := 0
  total := 0
  sent := 0
  proper := by simp
  counted := rfl
  reached := rfl
  inside := ⟨Nat.le_refl 0, rfl⟩

/-! ## Queueing -/

/-- Further segments leave the cursor where it is. -/
theorem Inside.append {segments further : List Bytes} {index offset : Nat}
    (inside : Inside segments index offset) (proper : ∀ segment ∈ further, segment ≠ []) :
    Inside (segments ++ further) index offset := by
  obtain ⟨within, before⟩ := inside
  refine ⟨by rw [List.length_append]; omega, ?_⟩
  rw [List.drop_append_of_le_length within]
  cases behind : segments.drop index with
  | nil =>
      rw [behind] at before
      subst before
      cases further with
      | nil => rfl
      | cons next rest => exact List.length_pos_iff.2 (proper next List.mem_cons_self)
  | cons next rest =>
      rw [behind] at before
      exact before

/-- A segment as it is queued: an empty one is left out. -/
def queued (segment : Bytes) : List Bytes := if segment.isEmpty then [] else [segment]

theorem queued_proper (segment : Bytes) : ∀ other ∈ queued segment, other ≠ [] := by
  intro other member
  rw [queued] at member
  split at member
  · cases member
  · rename_i some_octets
    rw [List.mem_singleton.1 member]
    exact fun none => some_octets (List.isEmpty_iff.2 none)

theorem queued_flatten (segment : Bytes) : (queued segment).flatten = segment := by
  rw [queued]
  split
  · rename_i none
    exact (List.isEmpty_iff.1 none).symm
  · exact List.flatten_singleton

/-- Queue a segment. -/
def push (outbox : Outbox) (segment : Bytes) : Outbox :=
  { outbox with
    segments := outbox.segments ++ queued segment
    total := outbox.total + segment.length
    proper := fun other member =>
      (List.mem_append.1 member).elim (outbox.proper other) (queued_proper segment other)
    counted := by
      rw [List.flatten_append, queued_flatten, List.length_append, outbox.counted]
    reached := by rw [List.take_append_of_le_length outbox.inside.1, outbox.reached]
    inside := outbox.inside.append (queued_proper segment) }

/-- Queue data framed as one chunk.  Empty data would end the body, so it is left
out. -/
def pushChunk (outbox : Outbox) (data : Bytes) : Outbox :=
  if data.isEmpty then outbox
  else
    ((outbox.push (Bytes.ofNatHex data.length ++ Bytes.ofAscii "\r\n")).push data).push
      (Bytes.ofAscii "\r\n")

/-! ## What is not out yet -/

/-- How many octets are not out yet. -/
def remaining (outbox : Outbox) : Nat := outbox.total - outbox.sent

/-- Is everything out? -/
def isDrained (outbox : Outbox) : Bool := outbox.sent == outbox.total

/-- The segments from the cursor on, the first one without what is out of it. -/
def pending (outbox : Outbox) : List Bytes :=
  match outbox.segments.drop outbox.index with
  | [] => []
  | segment :: rest => segment.drop outbox.offset :: rest

/-- What is offered to one vectored write. -/
def slices (outbox : Outbox) : List Bytes := outbox.pending.take maxSlices

/-! ## Moving on -/

/-- The cursor `n` octets further on, `rest` being the segments from it on. -/
def passOver (n : Nat) (rest : List Bytes) (index offset : Nat) : Nat × Nat :=
  match rest with
  | [] => (index, offset)
  | segment :: rest =>
      if n = 0 then (index, offset)
      else if n < segment.length - offset then (index, offset + n)
      else passOver (n - (segment.length - offset)) rest (index + 1) 0

/-- **The cursor goes on by `n` octets**, as long as there are so many behind it. -/
theorem passOver_reaches {segments rest : List Bytes} {n index offset : Nat}
    (proper : ∀ segment ∈ segments, segment ≠ []) (behind : segments.drop index = rest)
    (inside : Inside segments index offset) (enough : n + offset ≤ rest.flatten.length) :
    Inside segments (passOver n rest index offset).1 (passOver n rest index offset).2 ∧
      (segments.take (passOver n rest index offset).1).flatten.length +
          (passOver n rest index offset).2 =
        (segments.take index).flatten.length + offset + n := by
  induction rest generalizing n index offset with
  | nil =>
      have none : n = 0 := by
        simp only [List.flatten_nil, List.length_nil] at enough
        omega
      exact ⟨inside, by simp only [passOver, none, Nat.add_zero]⟩
  | cons segment rest ih =>
      obtain ⟨within, before⟩ := inside
      rw [behind] at before
      simp only [List.flatten_cons, List.length_append] at enough
      rw [passOver]
      split
      · rename_i none
        exact ⟨⟨within, by rw [behind]; exact before⟩, by rw [none, Nat.add_zero]⟩
      split
      · refine ⟨⟨within, ?_⟩, (Nat.add_assoc _ _ _).symm⟩
        rw [behind]
        show offset + n < segment.length
        omega
      · -- the segment is passed as a whole, so the cursor stands before the next one
        have next : segments.drop (index + 1) = rest := by
          rw [← List.drop_drop, behind, List.drop_one, List.tail_cons]
        have shorter : index < segments.length := by
          refine Nat.lt_of_not_le fun beyond => ?_
          rw [List.drop_eq_nil_of_le beyond] at behind
          cases behind
        have start : Inside segments (index + 1) 0 := by
          refine ⟨shorter, ?_⟩
          rw [next]
          cases rest with
          | nil => rfl
          | cons following others =>
              have queued : following ∈ segments :=
                List.mem_of_mem_drop (by rw [next]; exact List.mem_cons_self)
              exact List.length_pos_iff.2 (proper following queued)
        have passed : (segments.take (index + 1)).flatten.length =
            (segments.take index).flatten.length + segment.length := by
          rw [List.take_add, behind]
          simp
        obtain ⟨still, count⟩ := ih (n := n - (segment.length - offset)) next start (by omega)
        exact ⟨still, by omega⟩

/-- The octets from the cursor on are those that are not out. -/
theorem behind_length (outbox : Outbox) :
    (outbox.segments.drop outbox.index).flatten.length = outbox.remaining + outbox.offset := by
  have whole : outbox.total = (outbox.segments.take outbox.index).flatten.length +
      (outbox.segments.drop outbox.index).flatten.length := by
    rw [outbox.counted, ← List.length_append, ← List.flatten_append, List.take_append_drop]
  have reached := outbox.reached
  have before := outbox.inside.2
  have begun : outbox.offset ≤ (outbox.segments.drop outbox.index).flatten.length := by
    cases behind : outbox.segments.drop outbox.index with
    | nil =>
        rw [behind] at before
        omega
    | cons segment rest =>
        rw [behind] at before
        simp only [List.flatten_cons, List.length_append]
        omega
  rw [remaining]
  omega

/-- Note that `n` octets went out, or all of them when there are fewer. -/
def advance (outbox : Outbox) (n : Nat) : Outbox :=
  let passed := min n outbox.remaining
  let behind := outbox.segments.drop outbox.index
  have goesOn := passOver_reaches outbox.proper (Eq.refl behind) outbox.inside (n := passed)
    (by rw [outbox.behind_length]; omega)
  { outbox with
    index := (passOver passed behind outbox.index outbox.offset).1
    offset := (passOver passed behind outbox.index outbox.offset).2
    sent := outbox.sent + passed
    reached := by rw [goesOn.2, outbox.reached]
    inside := goesOn.1 }

end Outbox

/-! ## Turns at a socket -/

/-- What is asked of a socket.  Every answer is a number or a fault. -/
inductive WireAsk where
  /-- Take some of these octets; the answer is how many were taken. -/
  | write (slices : List Bytes)
  /-- Say when something can be taken again, within so many milliseconds. -/
  | awaitWritable (timeout : Nat)
  /-- Take some of a file, from an offset on, at most `count` octets; the answer is
  how many were taken. -/
  | transfer (content : Bytes) (offset count : Nat)
  deriving DecidableEq, Repr

/-- The answer of a socket. -/
abbrev WireAnswer := Except IoFault Nat

/-- Draining an outbox; `blocked` while waiting for readiness. -/
structure Flush where
  outbox : Outbox
  timeout : Nat
  blocked : Bool
  deriving DecidableEq, Repr

namespace Flush

/-- Begin to drain. -/
def start (outbox : Outbox) (timeout : Nat) : Flush := ⟨outbox, timeout, false⟩

/-- Is everything out? -/
def isDone (flush : Flush) : Bool := flush.outbox.isDrained

/-- What is asked next, as long as it is not done. -/
def ask (flush : Flush) : WireAsk :=
  if flush.blocked then .awaitWritable flush.timeout else .write flush.outbox.slices

/-- Take the answer: the state afterwards, and the fault that ends the flush, if
any.  The outbox keeps its place in either case. -/
def take (flush : Flush) (answer : WireAnswer) : Flush × Option IoFault :=
  if flush.blocked then
    match answer with
    | .ok _ => ({ flush with blocked := false }, none)
    | .error fault => ({ flush with blocked := false }, some fault)
  else
    match answer with
    | .ok 0 => (flush, some .writeZero)
    | .ok n => ({ flush with outbox := flush.outbox.advance n }, none)
    | .error fault =>
        if fault.isWouldBlock then ({ flush with blocked := true }, none)
        else if fault.isInterrupted then (flush, none)
        else (flush, some fault)

end Flush

/-- Sending part of a file: the file, the position reached, how many octets are
wanted and how many are out.  It is `ended` once the file gave nothing more. -/
structure Transfer where
  content : Bytes
  offset : Nat
  wanted : Nat
  sent : Nat
  timeout : Nat
  blocked : Bool
  ended : Bool
  deriving DecidableEq, Repr

namespace Transfer

/-- The most octets asked for at once. -/
def maxCount : Nat := 1024 * 1024 * 1024

/-- Begin to send `wanted` octets from a position on. -/
def start (content : Bytes) (offset wanted timeout : Nat) : Transfer :=
  ⟨content, offset, wanted, 0, timeout, false, false⟩

/-- Is enough out, or has the file ended? -/
def isDone (transfer : Transfer) : Bool :=
  decide (transfer.wanted ≤ transfer.sent) || transfer.ended

/-- What is asked next, as long as it is not done. -/
def ask (transfer : Transfer) : WireAsk :=
  if transfer.blocked then .awaitWritable transfer.timeout
  else
    .transfer transfer.content transfer.offset (min (transfer.wanted - transfer.sent) maxCount)

/-- Take the answer: the state afterwards, and the fault that ends the transfer,
if any. -/
def take (transfer : Transfer) (answer : WireAnswer) : Transfer × Option IoFault :=
  if transfer.blocked then
    match answer with
    | .ok _ => ({ transfer with blocked := false }, none)
    | .error fault => ({ transfer with blocked := false }, some fault)
  else
    match answer with
    | .ok 0 => ({ transfer with ended := true }, none)
    | .ok n => ({ transfer with offset := transfer.offset + n, sent := transfer.sent + n }, none)
    | .error fault =>
        if fault.isWouldBlock then ({ transfer with blocked := true }, none)
        else if fault.isInterrupted then (transfer, none)
        else (transfer, some fault)

end Transfer

end EmbeddedHttp
