/-
# EmbeddedHttp.Proofs.Response.Sending -- a file goes out as one region

A transfer sends part of a file in as many calls as the socket makes of it.  Its position
is kept beside the count of what is out, over partial calls, calls made again and waits
for readiness.  What keeps the two together (`Transfer.Follows`) holds when a transfer
begins, and every turn keeps it: so at every moment what went out is the file from the
position on, and never more than is wanted (`Transfer.region`).
-/
import EmbeddedHttp.Response.Outbox
import EmbeddedHttp.Proofs.Runs

namespace EmbeddedHttp

set_option autoImplicit false

/-! ## What a socket may do -/

namespace WireAsk

/-- A socket takes no more of a file than it was asked to, and no more than the file has
behind the position.  Every fault is possible, and so is every answer to a wait. -/
def Supplies : WireAsk → WireAnswer → Prop
  | .transfer content offset count, .ok n => n ≤ count ∧ n ≤ (content.drop offset).length
  | _, _ => True

/-- The octets that go out with an answer. -/
def octets : WireAsk → WireAnswer → Bytes
  | .write slices, .ok n => slices.flatten.take n
  | .transfer content offset _, .ok n => (content.drop offset).take n
  | _, _ => []

end WireAsk

namespace Transfer

/-- One turn of a transfer. -/
inductive Act where
  /-- The call sent these octets of the file, none of them when the file gave nothing. -/
  | gave (octets : Bytes)
  /-- A turn in which no call came to anything: the next one waits, or calls again. -/
  | paused
  /-- The transfer returns. -/
  | returned (result : Except IoFault Nat)
  deriving DecidableEq

/-- A transfer on its way, or where it stood when it returned. -/
inductive Use where
  | sending (transfer : Transfer)
  | finished (transfer : Transfer) (result : Except IoFault Nat)
  deriving DecidableEq

/-- The transfer, whether it goes on or not. -/
def Use.transfer : Use → Transfer
  | .sending transfer | .finished transfer _ => transfer

/-- What an answer of the socket means to a transfer. -/
def heard (transfer : Transfer) (answer : WireAnswer) : Act × Use :=
  match transfer.take answer with
  | (after, some fault) => (.returned (.error fault), .finished after (.error fault))
  | (after, none) =>
      match transfer.ask, answer with
      | .transfer _ _ _, .ok _ => (.gave (transfer.ask.octets answer), .sending after)
      | _, _ => (.paused, .sending after)

/-- What may happen next: a transfer returns once it is done, and else asks the socket. -/
inductive Step : Use → Act → Use → Prop where
  | done {transfer : Transfer} (done : transfer.isDone = true) :
      Step (.sending transfer) (.returned (.ok transfer.sent))
        (.finished transfer (.ok transfer.sent))
  | turn {transfer : Transfer} {answer : WireAnswer} (undone : transfer.isDone = false)
      (supplied : transfer.ask.Supplies answer) :
      Step (.sending transfer) (heard transfer answer).1 (heard transfer answer).2

/-- What a turn put on the wire. -/
def Act.octets : Act → Bytes
  | .gave octets => octets
  | .paused | .returned _ => []

/-- All that went out, in order. -/
def out (acts : List Act) : Bytes := acts.flatMap Act.octets

@[simp] theorem out_concat (acts : List Act) (act : Act) :
    out (acts ++ [act]) = out acts ++ act.octets := by
  simp [out]

/-! ## Position and count stay together -/

variable {content : Bytes} {position wanted timeout : Nat} {transfer : Transfer}
  {answer : WireAnswer} {acts : List Act} {act : Act} {use after : Use}

/-- A transfer follows its acts: it stands as far behind the first position as octets went
out, these are the file from there on, and it knows whether the file gave nothing. -/
structure Follows (content : Bytes) (position wanted : Nat) (acts : List Act)
    (transfer : Transfer) : Prop where
  file : transfer.content = content
  aim : transfer.wanted = wanted
  offset : transfer.offset = position + transfer.sent
  bounded : transfer.sent ≤ wanted
  present : transfer.sent ≤ (content.drop position).length
  out : out acts = (content.drop position).take transfer.sent
  ended : transfer.ended = true ↔ .gave [] ∈ acts
  short : transfer.ended = true → transfer.sent < wanted

theorem undone_iff : transfer.isDone = false ↔
    transfer.sent < transfer.wanted ∧ transfer.ended = false := by
  simp [isDone]

namespace Follows

theorem start :
    Follows content position wanted [] (Transfer.start content position wanted timeout) where
  file := rfl
  aim := rfl
  offset := rfl
  bounded := Nat.zero_le _
  present := Nat.zero_le _
  out := rfl
  ended := ⟨fun ended => (nomatch ended), fun member => (nomatch member)⟩
  short ended := nomatch ended

/-- As many octets went out as the transfer counted. -/
theorem count (follows : Follows content position wanted acts transfer) :
    transfer.sent = (Transfer.out acts).length := by
  rw [follows.out, List.length_take, Nat.min_eq_left follows.present]

/-- A turn in which nothing went out, and the file was not found at its end. -/
theorem quiet (follows : Follows content position wanted acts transfer) (blocked : Bool)
    (silent : act.octets = []) (other : act ≠ .gave []) :
    Follows content position wanted (acts ++ [act]) { transfer with blocked := blocked } where
  file := follows.file
  aim := follows.aim
  offset := follows.offset
  bounded := follows.bounded
  present := follows.present
  out := by rw [out_concat, silent, List.append_nil]; exact follows.out
  ended := by
    rw [List.mem_append, List.mem_singleton]
    exact follows.ended.trans ⟨.inl, fun member => member.resolve_right (Ne.symm other)⟩
  short := follows.short

/-- Some octets went out: they stand where the ones before ended. -/
theorem gave (follows : Follows content position wanted acts transfer)
    (undone : transfer.isDone = false) {n : Nat} (some_octets : 0 < n)
    (asked : n ≤ transfer.wanted - transfer.sent)
    (there : n ≤ (transfer.content.drop transfer.offset).length) :
    Follows content position wanted
      (acts ++ [.gave ((transfer.content.drop transfer.offset).take n)])
      { transfer with offset := transfer.offset + n, sent := transfer.sent + n } := by
  obtain ⟨more, goesOn⟩ := undone_iff.1 undone
  have whole := there
  rw [follows.file, follows.offset, ← List.drop_drop, List.length_drop] at there
  have aim := follows.aim
  have offset := follows.offset
  have present := follows.present
  refine ⟨follows.file, aim, by simp only; omega, by simp only; omega, by simp only; omega,
    ?_, ?_, fun ended => ?_⟩
  · rw [out_concat, follows.out, Act.octets, List.take_add, follows.file, offset, List.drop_drop]
  · rw [List.mem_append, List.mem_singleton]
    refine follows.ended.trans ⟨.inl, fun member => member.resolve_right fun empty => ?_⟩
    have none := congrArg List.length (Act.gave.inj empty)
    rw [List.length_nil, List.length_take, Nat.min_eq_left whole] at none
    omega
  · -- a file that gave nothing is asked no more
    rw [goesOn] at ended
    cases ended

/-- The file gave nothing, although something was wanted. -/
theorem endsHere (follows : Follows content position wanted acts transfer)
    (undone : transfer.isDone = false) :
    Follows content position wanted (acts ++ [.gave []]) { transfer with ended := true } where
  file := follows.file
  aim := follows.aim
  offset := follows.offset
  bounded := follows.bounded
  present := follows.present
  out := by rw [out_concat, follows.out]; exact List.append_nil _
  ended := ⟨fun _ => List.mem_append_right _ List.mem_cons_self, fun _ => rfl⟩
  short _ := follows.aim ▸ (undone_iff.1 undone).1

/-- What is asked next: at least one octet and no more than is still wanted, from where the
octets that are out ended. -/
theorem asks (follows : Follows content position wanted acts transfer)
    (undone : transfer.isDone = false) :
    transfer.ask = .awaitWritable transfer.timeout ∨
      ∃ count, transfer.ask = .transfer content (position + (Transfer.out acts).length) count ∧
        0 < count ∧ count ≤ wanted - (Transfer.out acts).length ∧ count ≤ maxCount := by
  obtain ⟨more, -⟩ := undone_iff.1 undone
  rw [follows.aim] at more
  rw [ask, ← follows.count, ← follows.offset, follows.file, follows.aim]
  split
  · exact .inl rfl
  · have positive : 0 < maxCount := by decide
    exact .inr ⟨_, rfl, by omega, by omega, by omega⟩

end Follows

/-! ## Turns -/

/-- A turn sends some octets, finds the end of the file, comes to nothing, or fails. -/
theorem heard_cases (transfer : Transfer) (answer : WireAnswer) :
    (∃ n, 0 < n ∧ transfer.blocked = false ∧ answer = .ok n ∧
      heard transfer answer = (.gave ((transfer.content.drop transfer.offset).take n), .sending
        { transfer with offset := transfer.offset + n, sent := transfer.sent + n })) ∨
    heard transfer answer = (.gave [], .sending { transfer with ended := true }) ∨
    (∃ blocked, heard transfer answer =
      (.paused, .sending { transfer with blocked := blocked })) ∨
    ∃ fault blocked, heard transfer answer = (.returned (.error fault),
      .finished { transfer with blocked := blocked } (.error fault)) := by
  obtain ⟨content, offset, wanted, sent, timeout, blocked, ended⟩ := transfer
  cases blocked with
  | true =>
      cases answer with
      | ok n => exact .inr (.inr (.inl ⟨false, rfl⟩))
      | error fault => exact .inr (.inr (.inr ⟨fault, false, rfl⟩))
  | false =>
      cases answer with
      | ok n =>
          cases n with
          | zero => exact .inr (.inl rfl)
          | succ n => exact .inl ⟨n + 1, Nat.succ_pos n, rfl, rfl, rfl⟩
      | error fault =>
          by_cases block : fault.isWouldBlock = true
          · exact .inr (.inr (.inl ⟨true, by simp [heard, take, ask, block]⟩))
          by_cases interrupted : fault.isInterrupted = true
          · exact .inr (.inr (.inl ⟨false, by simp [heard, take, ask, block, interrupted]⟩))
          · exact .inr (.inr (.inr ⟨fault, false, by
              simp [heard, take, block, interrupted]⟩))

/-- A transfer goes on unless the answer ends it. -/
theorem heard_use (transfer : Transfer) (answer : WireAnswer) :
    (heard transfer answer).2 = match transfer.take answer with
      | (after, some fault) => .finished after (.error fault)
      | (after, none) => .sending after := by
  rw [heard]
  rcases transfer.take answer with ⟨after, none | fault⟩
  · simp only
    split <;> rfl
  · rfl

/-- What a turn puts on the wire is what the answer does. -/
theorem heard_octets (transfer : Transfer) (answer : WireAnswer) :
    (heard transfer answer).1.octets = transfer.ask.octets answer := by
  obtain ⟨content, offset, wanted, sent, timeout, blocked, ended⟩ := transfer
  cases blocked with
  | true => cases answer <;> rfl
  | false =>
      cases answer with
      | ok n => cases n <;> rfl
      | error fault =>
          by_cases block : fault.isWouldBlock = true
          · simp [heard, take, ask, block, Act.octets, WireAsk.octets]
          by_cases interrupted : fault.isInterrupted = true
          · simp [heard, take, ask, block, interrupted, Act.octets, WireAsk.octets]
          · simp [heard, take, ask, block, interrupted, Act.octets, WireAsk.octets]

/-- **One step keeps position and count together.** -/
theorem Step.follows (moved : Step use act after)
    (follows : Follows content position wanted acts use.transfer) :
    Follows content position wanted (acts ++ [act]) after.transfer := by
  cases moved with
  | done done => exact follows.quiet _ rfl (by simp)
  | @turn transfer answer undone supplied =>
      rcases heard_cases transfer answer with ⟨n, some_octets, opened, rfl, came⟩ | came |
        ⟨blocked, came⟩ | ⟨fault, blocked, came⟩
      · rw [ask, if_neg (by simp [opened])] at supplied
        obtain ⟨asked, there⟩ := supplied
        have left : n ≤ transfer.wanted - transfer.sent := Nat.le_trans asked (Nat.min_le_left _ _)
        rw [came]
        exact Follows.gave follows undone some_octets left there
      · rw [came]
        exact follows.endsHere undone
      · rw [came]
        exact follows.quiet blocked rfl (by simp)
      · rw [came]
        exact follows.quiet blocked rfl (by simp)

/-- A transfer returns without a fault just when it is done, with what it counted. -/
theorem Step.returns {sent : Nat} {last : Transfer}
    (moved : Step use act (.finished last (.ok sent))) :
    sent = last.sent ∧ last.isDone = true := by
  generalize there : Use.finished last (.ok sent) = state at moved
  cases moved with
  | done done =>
      cases there
      exact ⟨rfl, done⟩
  | @turn transfer answer undone supplied =>
      rcases heard_cases transfer answer with ⟨n, -, -, -, came⟩ | came | ⟨blocked, came⟩ |
        ⟨fault, blocked, came⟩ <;> rw [came] at there <;> cases there

theorem runs_follow
    (run : Runs Step (.sending (Transfer.start content position wanted timeout)) acts use) :
    Follows content position wanted acts use.transfer := by
  induction run with
  | here => exact .start
  | next run moved ih => exact moved.follows ih

/-! ## The region -/

/-- What the turns of a transfer came to. -/
structure Region (content : Bytes) (position wanted : Nat) (acts : List Act) (use : Use) :
    Prop where
  /-- What is out is the file from the position on, without gap or repeat. -/
  contiguous : out acts = (content.drop position).take (out acts).length
  bounded : (out acts).length ≤ wanted
  /-- The next call goes on where the octets that are out ended. -/
  goesOn : ∀ transfer, use = .sending transfer → transfer.isDone = false →
    transfer.ask = .awaitWritable transfer.timeout ∨
      ∃ count, transfer.ask = .transfer content (position + (out acts).length) count ∧
        0 < count ∧ count ≤ wanted - (out acts).length ∧ count ≤ maxCount
  /-- A number that is returned is what went out, less than what was wanted just when a call
  gave nothing. -/
  counted : ∀ last sent, use = .finished last (.ok sent) →
    sent = (out acts).length ∧ (sent < wanted ↔ .gave [] ∈ acts)

/-- **A file goes out as one region**, whatever each call and each wait came to. -/
theorem region
    (run : Runs Step (.sending (Transfer.start content position wanted timeout)) acts use) :
    Region content position wanted acts use := by
  have follows := runs_follow run
  have count := follows.count
  refine ⟨?_, count ▸ follows.bounded, ?_, ?_⟩
  · rw [← count]
    exact follows.out
  · rintro transfer rfl undone
    exact follows.asks undone
  · rintro last sent rfl
    have returned : sent = last.sent ∧ last.isDone = true := by
      generalize there : Use.finished last (.ok sent) = state at run
      cases run with
      | here => cases there
      | next run moved => exact Step.returns (there ▸ moved)
    obtain ⟨rfl, done⟩ := returned
    refine ⟨count, ⟨fun short => follows.ended.1 ?_, fun gave => ?_⟩⟩
    · -- it is done although more was wanted
      have aim : last.wanted = wanted := follows.aim
      rw [isDone, aim, decide_eq_false (Nat.not_le.2 short), Bool.false_or] at done
      exact done
    · exact follows.short (follows.ended.2 gave)

end Transfer

end EmbeddedHttp
