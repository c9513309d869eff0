/-
# EmbeddedHttp.Proofs.Response.Flushing -- what partial writes come to

An outbox is added to while it rests, and a flush drains it.  Whatever the socket answers,
each octet that it took is told in a tally, and so is each that was queued.  The tally knows
nothing of segments and cursors; that the outbox always agrees with it (`Tally.Agrees`) is
kept by every step, and therefore by every run: nothing is lost and nothing is repeated
(`Outbox.flushing_agrees`).  A flush that ended with a fault leaves an outbox at rest, so a
further one is just a longer run.
-/
import EmbeddedHttp.Proofs.Response.Framed
import EmbeddedHttp.Proofs.Runs

namespace EmbeddedHttp

set_option autoImplicit false

/-! ## What may happen -/

/-- A socket takes no more than it is offered.  It may answer anything else. -/
def WireAsk.Permits : WireAsk → WireAnswer → Prop
  | .write slices, .ok n => n ≤ slices.flatten.length
  | _, _ => True

namespace Outbox

/-- An outbox in use. -/
inductive Use where
  | resting (outbox : Outbox)
  | flushing (flush : Flush)
  deriving DecidableEq

/-- One thing that happens to an outbox in use. -/
inductive Act where
  /-- These octets were queued. -/
  | queued (octets : Bytes)
  /-- Somebody noted that the next `n` octets are out, or all when there are fewer. -/
  | noted (n : Nat)
  /-- A flush begins. -/
  | began
  /-- The socket took these octets. -/
  | took (octets : Bytes)
  /-- A turn in which nothing went out, and the flush goes on. -/
  | paused
  /-- The flush returns. -/
  | returned (result : Except IoFault Unit)
  deriving DecidableEq

/-- The outbox, whether it rests or not. -/
def Use.outbox : Use → Outbox
  | .resting outbox => outbox
  | .flushing flush => flush.outbox

/-- What an answer of the socket means to a flush. -/
def heard (flush : Flush) (answer : WireAnswer) : Act × Use :=
  match flush.take answer with
  | (after, some fault) => (.returned (.error fault), .resting after.outbox)
  | (after, none) =>
      match flush.ask, answer with
      | .write slices, .ok n => (.took (slices.flatten.take n), .flushing after)
      | _, _ => (.paused, .flushing after)

/-- What may happen next.  An outbox is added to and moved on only while it rests; a flush
returns when nothing is left, and else asks the socket. -/
inductive Step : Use → Act → Use → Prop where
  | push (outbox : Outbox) (segment : Bytes) :
      Step (.resting outbox) (.queued segment) (.resting (outbox.push segment))
  | pushChunk (outbox : Outbox) (data : Bytes) :
      Step (.resting outbox) (.queued (if data.isEmpty then [] else chunk data))
        (.resting (outbox.pushChunk data))
  | advance (outbox : Outbox) (n : Nat) :
      Step (.resting outbox) (.noted n) (.resting (outbox.advance n))
  | begin (outbox : Outbox) (timeout : Nat) :
      Step (.resting outbox) .began (.flushing (Flush.start outbox timeout))
  | drained {flush : Flush} (done : flush.isDone = true) :
      Step (.flushing flush) (.returned (.ok ())) (.resting flush.outbox)
  | turn {flush : Flush} {answer : WireAnswer} (undone : flush.isDone = false)
      (permitted : flush.ask.Permits answer) :
      Step (.flushing flush) (heard flush answer).1 (heard flush answer).2

/-! ## What it comes to -/

/-- Everything that was queued, and everything that is out. -/
structure Tally where
  queued : Bytes
  out : Bytes

namespace Tally

/-- The octets that are queued and not out. -/
def waiting (tally : Tally) : Bytes := tally.queued.drop tally.out.length

/-- One more act. -/
def note (tally : Tally) : Act → Tally
  | .queued octets => { tally with queued := tally.queued ++ octets }
  | .noted n => { tally with out := tally.out ++ tally.waiting.take n }
  | .took octets => { tally with out := tally.out ++ octets }
  | .began | .paused | .returned _ => tally

/-- What the acts come to, oldest first. -/
def of (acts : List Act) : Tally := acts.foldl note ⟨[], []⟩

/-- The outbox has the octets of the tally, and its cursor stands behind those that are out:
these are the first ones that were queued. -/
structure Agrees (tally : Tally) (outbox : Outbox) : Prop where
  queued : outbox.segments.flatten = tally.queued
  out : tally.out = tally.queued.take outbox.sent

/-- What is offered goes on exactly at the cursor, in at most so many slices, none of them
empty, and there is something in it unless everything is out. -/
structure Continues (tally : Tally) (outbox : Outbox) : Prop where
  proper : ∀ slice ∈ outbox.slices, slice ≠ []
  few : outbox.slices.length ≤ maxSlices
  next : outbox.slices.flatten <+: tally.waiting
  some : outbox.slices = [] ↔ tally.out = tally.queued

variable {tally : Tally} {outbox : Outbox}

theorem of_concat (acts : List Act) (act : Act) : of (acts ++ [act]) = (of acts).note act := by
  rw [of, List.foldl_append]
  rfl

namespace Agrees

theorem empty : Agrees ⟨[], []⟩ Outbox.empty := ⟨rfl, rfl⟩

/-- The counts of the outbox are those of the tally. -/
theorem counts (agrees : tally.Agrees outbox) :
    outbox.total = tally.queued.length ∧ outbox.sent = tally.out.length := by
  have bounded := outbox.sent_le
  rw [outbox.counted, agrees.queued] at bounded
  rw [outbox.counted, agrees.queued, agrees.out, List.length_take, Nat.min_eq_left bounded]
  exact ⟨rfl, rfl⟩

theorem waiting (agrees : tally.Agrees outbox) : outbox.pending.flatten = tally.waiting := by
  rw [pending_flatten, agrees.queued, agrees.counts.2, Tally.waiting]

/-- Everything is out when nothing is left. -/
theorem drained (agrees : tally.Agrees outbox) :
    outbox.isDrained = true ↔ tally.out = tally.queued := by
  obtain ⟨total, sent⟩ := agrees.counts
  rw [isDrained, beq_iff_eq, total]
  constructor
  · intro all
    rw [agrees.out, all, List.take_length]
  · intro all
    rw [sent, all]

theorem push (agrees : tally.Agrees outbox) (octets : Bytes) :
    (tally.note (.queued octets)).Agrees (outbox.push octets) := by
  have bounded := outbox.sent_le
  rw [outbox.counted, agrees.queued] at bounded
  refine ⟨?_, ?_⟩
  · rw [push_segments, agrees.queued]
    rfl
  · rw [push_sends_nothing]
    exact agrees.out.trans (List.take_append_of_le_length bounded).symm

theorem pushChunk (agrees : tally.Agrees outbox) (data : Bytes) :
    (tally.note (.queued (if data.isEmpty then [] else chunk data))).Agrees
      (outbox.pushChunk data) := by
  rw [Outbox.pushChunk]
  split
  · simpa only [note, List.append_nil] using agrees
  · -- a chunk is three segments, and the tally has them as one string
    have three := ((agrees.push (Bytes.ofNatHex data.length ++ Bytes.ofAscii "\r\n")).push
      data).push (Bytes.ofAscii "\r\n")
    simpa only [note, chunk, List.append_assoc] using three

/-- Moving the cursor on is taking what waits. -/
theorem advance (agrees : tally.Agrees outbox) (n : Nat) :
    (tally.note (.noted n)).Agrees (outbox.advance n) := by
  obtain ⟨total, sent⟩ := agrees.counts
  have left : tally.waiting.length = outbox.remaining := by
    rw [Tally.waiting, List.length_drop, remaining, total, sent]
  have front : tally.waiting.take n = tally.waiting.take (min n outbox.remaining) := by
    rw [← left, List.take_eq_take_iff, Nat.min_assoc, Nat.min_self]
  refine ⟨agrees.queued, ?_⟩
  show tally.out ++ tally.waiting.take n = tally.queued.take (outbox.advance n).sent
  rw [advance_sent, List.take_add, ← agrees.out, front, Tally.waiting, ← sent]

/-- What the socket took was what waits, since that is what it was offered. -/
theorem took (agrees : tally.Agrees outbox) {n : Nat}
    (offered : n ≤ outbox.slices.flatten.length) :
    (tally.note (.took (outbox.slices.flatten.take n))).Agrees (outbox.advance n) := by
  obtain ⟨others, whole⟩ := outbox.slices_prefix
  have same : outbox.slices.flatten.take n = tally.waiting.take n := by
    rw [← agrees.waiting, ← whole, List.take_append_of_le_length offered]
  rw [same]
  exact agrees.advance n

theorem continues (agrees : tally.Agrees outbox) : tally.Continues outbox where
  proper := outbox.slices_proper
  few := List.length_take_le _ _
  next := agrees.waiting ▸ outbox.slices_prefix
  some := outbox.slices_eq_nil.trans agrees.drained

end Agrees

end Tally

/-! ## Turns of a flush -/

variable {flush : Flush} {answer : WireAnswer} {use after : Use} {act : Act}
  {tally : Tally}

/-- A turn moves the cursor over what the socket took, and does nothing else to the outbox. -/
theorem heard_cases (flush : Flush) (answer : WireAnswer) :
    (∃ n later, flush.ask = .write flush.outbox.slices ∧ answer = .ok n ∧
      later.outbox = flush.outbox.advance n ∧
      heard flush answer = (.took (flush.outbox.slices.flatten.take n), .flushing later)) ∨
    (∃ later : Flush, later.outbox = flush.outbox ∧
      heard flush answer = (.paused, .flushing later)) ∨
    ∃ fault, heard flush answer = (.returned (.error fault), .resting flush.outbox) := by
  obtain ⟨outbox, timeout, blocked⟩ := flush
  cases blocked with
  | true =>
      cases answer with
      | ok n => exact .inr (.inl ⟨⟨outbox, timeout, false⟩, rfl, rfl⟩)
      | error fault => exact .inr (.inr ⟨fault, rfl⟩)
  | false =>
      cases answer with
      | ok n =>
          cases n with
          | zero => exact .inr (.inr ⟨.writeZero, rfl⟩)
          | succ n => exact .inl ⟨n + 1, ⟨outbox.advance (n + 1), timeout, false⟩, rfl, rfl, rfl, rfl⟩
      | error fault =>
          by_cases block : fault.isWouldBlock = true
          · exact .inr (.inl ⟨⟨outbox, timeout, true⟩, rfl, by
              simp [heard, Flush.take, Flush.ask, block]⟩)
          by_cases interrupted : fault.isInterrupted = true
          · exact .inr (.inl ⟨⟨outbox, timeout, false⟩, rfl, by
              simp [heard, Flush.take, Flush.ask, block, interrupted]⟩)
          · exact .inr (.inr ⟨fault, by simp [heard, Flush.take, block, interrupted]⟩)

/-- **One step keeps the agreement.** -/
theorem Step.agrees (moved : Step use act after) (agrees : tally.Agrees use.outbox) :
    (tally.note act).Agrees after.outbox := by
  cases moved with
  | push outbox segment => exact agrees.push segment
  | pushChunk outbox data => exact agrees.pushChunk data
  | advance outbox n => exact agrees.advance n
  | begin outbox timeout => exact agrees
  | drained done => exact agrees
  | @turn flush answer undone permitted =>
      rcases heard_cases flush answer with ⟨n, later, asked, rfl, moved, came⟩ |
        ⟨later, same, came⟩ | ⟨fault, came⟩
      · rw [asked] at permitted
        rw [came]
        show Tally.Agrees _ later.outbox
        rw [moved]
        exact agrees.took permitted
      · rw [came]
        show Tally.Agrees _ later.outbox
        rw [same]
        exact agrees
      · rw [came]
        exact agrees

/-- A flush returns with the outbox as it is, and without a fault just when it is drained. -/
theorem Step.returns {result : Except IoFault Unit} (moved : Step use (.returned result) after) :
    after = .resting use.outbox ∧ (result = .ok () ↔ use.outbox.isDrained = true) := by
  generalize told : Act.returned result = act at moved
  cases moved with
  | drained done =>
      cases told
      exact ⟨rfl, fun _ => done, fun _ => rfl⟩
  | @turn flush answer undone permitted =>
      rcases heard_cases flush answer with ⟨n, later, -, -, -, came⟩ | ⟨later, -, came⟩ |
        ⟨fault, came⟩ <;> rw [came] at told ⊢ <;> cases told
      refine ⟨rfl, fun fine => (by cases fine), fun done => ?_⟩
      rw [Flush.isDone, show flush.outbox.isDrained = true from done] at undone
      cases undone
  | _ => cases told

/-- A flush that finds nothing left returns. -/
theorem Step.of_drained (moved : Step (.flushing flush) act after)
    (done : flush.outbox.isDrained = true) : act = .returned (.ok ()) := by
  cases moved with
  | drained => rfl
  | turn undone =>
      rw [Flush.isDone, done] at undone
      cases undone

/-- What a run comes to, the outbox has. -/
theorem runs_agrees {acts : List Act} (run : Runs Step (.resting empty) acts use) :
    (Tally.of acts).Agrees use.outbox := by
  induction run with
  | here => exact .empty
  | next run moved ih =>
      rw [Tally.of_concat]
      exact moved.agrees ih

/-- **Partial writes lose nothing and repeat nothing.**  However an outbox was filled, moved
on and flushed, and whatever the socket answered: it holds what was queued, in that order; the
octets that are out are the first `sent` of these; what is offered continues there.  A flush
returns without a fault just when all that was queued is out; when it returns, with a fault or
without, the outbox stays where it is, so a further flush continues from there. -/
theorem flushing_agrees {acts : List Act} (run : Runs Step (.resting empty) acts use) :
    (Tally.of acts).Agrees use.outbox ∧
      (use.outbox.total = (Tally.of acts).queued.length ∧
        use.outbox.sent = (Tally.of acts).out.length) ∧
      (Tally.of acts).Continues use.outbox ∧
      (∀ result after, Step use (.returned result) after →
        after = .resting use.outbox ∧
          (result = .ok () ↔ (Tally.of acts).out = (Tally.of acts).queued)) ∧
      ∀ flush act after, use = .flushing flush → Step use act after →
        (Tally.of acts).out = (Tally.of acts).queued → act = .returned (.ok ()) := by
  have agrees := runs_agrees run
  refine ⟨agrees, agrees.counts, agrees.continues, ?_, ?_⟩
  · intro result after moved
    rw [← agrees.drained]
    exact moved.returns
  · rintro flush act after rfl moved all
    exact moved.of_drained (agrees.drained.2 all)

/-- A write that ends within the second segment, a wait that times out, one more segment, and
a flush that gets the rest out. -/
def resumed : List Act :=
  [.queued [1, 2], .queued [3, 4], .began, .took [1, 2, 3], .paused,
    .returned (.error .writeTimedOut), .queued [5], .began, .took [4, 5], .returned (.ok ())]

theorem flushing_agrees_resumed : ∃ use, Runs Step (.resting empty) resumed use ∧
    use.outbox.isDrained = true ∧ (Tally.of resumed).Agrees use.outbox := by
  let full := (empty.push [1, 2]).push [3, 4]
  let cut := full.advance 3
  let more := cut.push [5]
  have run : Runs Step (.resting empty) resumed (.resting (more.advance 2)) :=
    .cons (.push empty [1, 2]) <| .cons (.push _ [3, 4]) <| .cons (.begin full 9) <|
    .cons (@Step.turn ⟨full, 9, false⟩ (.ok 3) (by decide) (show 3 ≤ 4 by decide)) <|
    .cons (@Step.turn ⟨cut, 9, false⟩ (.error .wouldBlock) (by decide) trivial) <|
    .cons (@Step.turn ⟨cut, 9, true⟩ (.error .writeTimedOut) (by decide) trivial) <|
    .cons (.push cut [5]) <| .cons (.begin more 9) <|
    .cons (@Step.turn ⟨more, 9, false⟩ (.ok 2) (by decide) (show 2 ≤ 2 by decide)) <|
    .single (@Step.drained ⟨more.advance 2, 9, false⟩ (by decide))
  exact ⟨_, run, by decide, (flushing_agrees run).1⟩

end Outbox

end EmbeddedHttp
