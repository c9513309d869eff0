/-
# EmbeddedHttp.Proofs.Request.Blame -- errors land on the message that caused them

No event records an error on a request or takes its completion back
(`RequestQueue.Keeps`), so a request whose message was read to its end stays as it is,
whatever is heard later (`Intake.hear_intact`).  An error finishes the request being
received, or stands behind all requests; either way it is the last one, and every request
before it was read to its end without an error (`Intake.hear_blames`).

`Intake.Synced` says what holds of all requests that arrived, while more is read and once
no more is.
-/
import EmbeddedHttp.Proofs.Request.Taking

namespace EmbeddedHttp

set_option autoImplicit false

/-- The message was read to its end, without an error. -/
def Request.Intact (request : Request) : Prop :=
  request.complete = true ∧ request.failure = none

theorem Request.intact_of_ready {request : Request} (ready : request.isReady = true)
    (harmless : request.failure = none) : request.Intact := by
  refine ⟨?_, harmless⟩
  simpa [Request.isReady, harmless] using ready

/-! ## Events -/

namespace RequestQueue

/-- Every request is still there, with the error that it carried or none, and complete if
it was. -/
def Keeps (queue later : RequestQueue) : Prop :=
  ∀ (i : Nat) (request : Request), queue.items[i]? = some request →
    ∃ after, later.items[i]? = some after ∧ after.failure = request.failure ∧
      (request.complete = true → after.complete = true)

/-- No request carries an error. -/
def Unblamed (queue : RequestQueue) : Prop :=
  ∀ request ∈ queue.items, request.failure = none

/-- The last request is blamed with a status, and those before it were read to their end
without an error; or no request is blamed. -/
def Blames (queue : RequestQueue) : Option Status → Prop
  | some status => ∃ before last, queue.items = before ++ [last] ∧
      last.failure = some status ∧ ∀ request ∈ before, request.Intact
  | none => queue.Unblamed

theorem Keeps.refl (queue : RequestQueue) : queue.Keeps queue := by
  intro i request found
  exact ⟨request, found, rfl, id⟩

theorem Keeps.trans {queue between later : RequestQueue} (first : queue.Keeps between)
    (second : between.Keeps later) : queue.Keeps later := by
  intro i request found
  obtain ⟨middle, foundThere, sameThere, completeThere⟩ := first i request found
  obtain ⟨after, foundAfter, same, complete⟩ := second i middle foundThere
  exact ⟨after, foundAfter, same.trans sameThere, fun done => complete (completeThere done)⟩

theorem keeps_push (queue : RequestQueue) (request : Request) :
    queue.Keeps (queue.push request) := by
  intro i old found
  exact ⟨old, getElem?_push_iff.2 (.inl found), rfl, id⟩

theorem keeps_last (front : RequestQueue) {last next : Request}
    (failure : next.failure = last.failure)
    (complete : last.complete = true → next.complete = true) :
    (front.push last).Keeps (front.push next) := by
  intro i request found
  rcases getElem?_push_iff.1 found with inside | ⟨atEnd, rfl⟩
  · exact ⟨request, getElem?_push_iff.2 (.inl inside), rfl, id⟩
  · exact ⟨next, getElem?_push_iff.2 (.inr ⟨atEnd, rfl⟩), failure, complete⟩

theorem unblamed_push {front : RequestQueue} {last : Request} :
    (front.push last).Unblamed ↔ front.Unblamed ∧ last.failure = none := by
  simp only [Unblamed, push, List.mem_append, List.mem_singleton]
  constructor
  · intro none
    exact ⟨fun request member => none request (.inl member), none last (.inr rfl)⟩
  · rintro ⟨inFront, atEnd⟩ request (member | rfl)
    · exact inFront request member
    · exact atEnd

end RequestQueue

namespace Assembly

open RequestQueue

/-- One event keeps every request, and records no error. -/
theorem listener_keeps (limits : Limits) (event : Event) (queue : RequestQueue) :
    queue.Keeps (listener limits event queue).2 ∧
      (queue.Unblamed → (listener limits event queue).2.Unblamed) := by
  by_cases begins : event = .begin
  · subst begins
    exact ⟨keeps_push queue Request.new, fun clean => unblamed_push.2 ⟨clean, rfl⟩⟩
  · rcases queue.empty_or_push with empty | ⟨front, last, rfl⟩
    · rw [listener_empty limits begins empty]
      exact ⟨Keeps.refl queue, id⟩
    · have changes : ∃ next, (listener limits event (front.push last)).2 = front.push next ∧
          next.failure = last.failure ∧ (last.complete = true → next.complete = true) := by
        by_cases ends : event = .complete
        · subst ends
          rw [listener_complete]
          exact ⟨_, rfl, rfl, fun _ => rfl⟩
        · have inside : event.isInner = true := by
            cases event <;> first | rfl | exact absurd rfl begins | exact absurd rfl ends
          obtain ⟨change, inner, told⟩ := listener_inner limits inside
          rw [told]
          exact ⟨_, rfl, inner.failure last, fun done => (inner.complete last).trans done⟩
      obtain ⟨next, told, failure, complete⟩ := changes
      rw [told]
      refine ⟨keeps_last front failure complete, fun clean => ?_⟩
      rw [unblamed_push] at clean ⊢
      exact ⟨clean.1, failure.trans clean.2⟩

/-- So do any events. -/
theorem deliver_keeps (limits : Limits) (events : List Event) (queue : RequestQueue) :
    queue.Keeps (deliver (listener limits) events queue).2 ∧
      (queue.Unblamed → (deliver (listener limits) events queue).2.Unblamed) := by
  induction events generalizing queue with
  | nil => exact ⟨Keeps.refl queue, id⟩
  | cons event rest ih =>
      have here := listener_keeps limits event queue
      rw [deliver]
      rcases told : listener limits event queue with ⟨refusal, after⟩
      rw [told] at here
      cases refusal with
      | some refusal => exact here
      | none =>
          obtain ⟨keeps, clean⟩ := ih after
          exact ⟨here.1.trans keeps, fun unblamed => clean (here.2 unblamed)⟩

end Assembly

/-! ## Recording an error -/

namespace RequestQueue

/-- Recording an error leaves alone what was read to its end. -/
theorem recordFailure_intact {queue : RequestQueue} {i : Nat} {request : Request}
    (found : queue.items[i]? = some request) (intact : request.Intact) (status : Status) :
    (queue.recordFailure status).items[i]? = some request := by
  refine (recordFailure_finds found status).resolve_right fun unready => ?_
  rw [Request.isReady, intact.1] at unready
  cases unready.1

/-- An error is the last request, behind requests that were read to their end. -/
theorem recordFailure_blames {queue : RequestQueue} (front : Intake.FrontReady queue)
    (clean : queue.Unblamed) (status : Status) :
    (queue.recordFailure status).Blames (some status) := by
  rcases queue.empty_or_push with empty | ⟨before, last, rfl⟩
  · refine ⟨[], Request.new.fail status, ?_, rfl, fun _ member => by cases member⟩
    simp [recordFailure, inProgress?, empty, push]
  · have all := Intake.frontReady_push.1 front
    obtain ⟨cleanBefore, harmless⟩ := unblamed_push.1 clean
    have intact : ∀ request ∈ before.items, request.Intact := fun request member =>
      Request.intact_of_ready (all request member) (cleanBefore request member)
    rw [recordFailure_push]
    split
    · rename_i ready
      refine ⟨before.items ++ [last], Request.new.fail status, rfl, rfl, ?_⟩
      intro request member
      rcases List.mem_append.1 member with inside | same
      · exact intact request inside
      · rw [List.mem_singleton.1 same]
        exact Request.intact_of_ready ready harmless
    · exact ⟨before.items, last.fail status, rfl, rfl, intact⟩

end RequestQueue

/-! ## What is heard -/

namespace Parser

/-- A step that succeeds does not leave the parser failed. -/
theorem step_not_failed {parser next : Parser} {b : UInt8} {rest : Bytes} {events : List Event}
    {taken : Nat} (stepped : parser.step b rest = (events, .ok (next, taken))) :
    next ≠ .failed := by
  have ofHead : ∀ {scan : Head.Scan} {size : Nat} {result : Except ParseError (Parser × Nat)},
      (headStep scan size b).2 = result → ∀ next taken, result = .ok (next, taken) →
        next ≠ .failed := by
    rintro scan size result same next taken rfl
    rw [headStep] at same
    split at same
    · split at same <;> cases same
      simp
    · simp only [afterHead] at same
      split at same
      · cases same
      · split at same
        · cases same
          simp
        · split at same <;> · cases same
                              simp
    · cases same
    · cases same
  cases parser with
  | failed => cases stepped
  | idle =>
      rw [step] at stepped
      split at stepped
      · cases stepped
        simp
      · exact ofHead rfl next taken (congrArg Prod.snd stepped)
  | head scan size => exact ofHead rfl next taken (congrArg Prod.snd stepped)
  | body left =>
      simp only [step] at stepped
      split at stepped <;> · cases stepped
                             simp
  | chunked place =>
      cases place with
      | data left =>
          cases stepped
          simp
      | _ =>
          simp only [step, chunkStep] at stepped
          split at stepped <;> · cases stepped
                                 try simp
  | upgraded =>
      cases stepped
      simp

end Parser

namespace Intake

open RequestQueue (Unblamed)

variable {limits : Limits}

/-- The status for which the message being received is blamed when reading gave this, if
any. -/
def blame? (limits : Limits) (intake : Intake) : Received → Option Status
  | .data (b :: rest) =>
      match (intake.feed limits (b :: rest)).result with
      | .ok _ => none
      | .error fault => some fault.status
  | received => if intake.parser.isIdle then none else some (lapse received)

/-- How reading octets ends: without a fault the events were told, and a fault is recorded
behind those that were. -/
theorem feed_cases (limits : Limits) (intake : Intake) (data : Bytes) :
    ∃ told, intake.queue.Keeps told ∧ (intake.queue.Unblamed → told.Unblamed) ∧
      ((∃ n, (intake.feed limits data).result = .ok n ∧
          (intake.feed limits data).intake.queue = told) ∨
        ∃ fault, (intake.feed limits data).result = .error fault ∧
          (intake.feed limits data).intake = ⟨.failed, told.recordFailure fault.status⟩) := by
  obtain ⟨keeps, clean⟩ :=
    Assembly.deliver_keeps limits (intake.parser.run data).1 intake.queue
  refine ⟨_, keeps, clean, ?_⟩
  rw [feed_eq]
  rcases deliver (Assembly.listener limits) (intake.parser.run data).1 intake.queue with
    ⟨refusal, queue⟩
  cases refusal with
  | some refusal => exact .inr ⟨_, rfl, rfl⟩
  | none =>
      cases (intake.parser.run data).2 with
      | error fault => exact .inr ⟨_, rfl, rfl⟩
      | ok parser => exact .inl ⟨_, rfl, rfl⟩

/-- **What was read to its end stays as it is, whatever is heard.** -/
theorem hear_intact (limits : Limits) {intake : Intake} {i : Nat} {request : Request}
    (found : intake.queue.items[i]? = some request) (intact : request.Intact)
    (received : Received) :
    ∃ after, (hear limits intake received).queue.items[i]? = some after ∧ after.Intact := by
  have cut : ∀ status, ∃ after, (intake.cutShort status).queue.items[i]? = some after ∧
      after.Intact := by
    intro status
    rw [cutShort]
    split
    · exact ⟨request, found, intact⟩
    · exact ⟨request, RequestQueue.recordFailure_intact found intact status, intact⟩
  have fed : ∀ data, ∃ after, (intake.feed limits data).intake.queue.items[i]? = some after ∧
      after.Intact := by
    intro data
    obtain ⟨told, keeps, -, ended⟩ := feed_cases limits intake data
    obtain ⟨after, there, failure, complete⟩ := keeps i request found
    have still : after.Intact := ⟨complete intact.1, failure.trans intact.2⟩
    rcases ended with ⟨n, -, same⟩ | ⟨fault, -, same⟩
    · rw [same]
      exact ⟨after, there, still⟩
    · rw [same]
      exact ⟨after, RequestQueue.recordFailure_intact there still fault.status, still⟩
  cases received with
  | data bytes =>
      cases bytes with
      | nil => exact cut _
      | cons b rest => exact fed _
  | timedOut | failed fault => exact cut _

/-! ## In step, and unblamed -/

/-- All requests that arrived, and whether more is read.  While more is, parser and queue
are in step and no request carries an error; once no more is, every request can be
answered, and only the last may carry an error. -/
structure Synced (intake : Intake) (closed : Bool) : Prop where
  reading : closed = false → intake.InStep ∧ intake.parser ≠ .upgraded ∧
    intake.parser ≠ .failed ∧ intake.queue.Unblamed
  shut : closed = true → AllReady intake.queue
  front : ∀ request ∈ intake.queue.items.dropLast, request.Intact

theorem intact_dropLast {queue : RequestQueue} (front : FrontReady queue)
    (clean : queue.Unblamed) : ∀ request ∈ queue.items.dropLast, request.Intact :=
  fun request member => Request.intact_of_ready (front request member)
    (clean request (List.dropLast_subset _ member))

theorem synced_opened : Synced Intake.empty false where
  reading _ := ⟨fun _ member => (by cases member), by decide, by decide,
    fun _ member => (by cases member)⟩
  shut closed := by cases closed
  front _ member := by cases member

/-- An error was recorded: no more is read, and it is the last request that carries it. -/
theorem synced_blamed {queue : RequestQueue} (front : FrontReady queue)
    (clean : queue.Unblamed) (parser : Parser) (status : Status) :
    Synced ⟨parser, queue.recordFailure status⟩ true where
  reading isOpen := by cases isOpen
  shut _ := front.recordFailure status
  front := by
    obtain ⟨before, last, items, -, intact⟩ :=
      RequestQueue.recordFailure_blames front clean status
    intro request member
    rw [items, List.dropLast_concat] at member
    exact intact request member

/-- What two invariants of a step leave, they leave together. -/
theorem Outcome.and {inside inside' : Parser → RequestQueue → Prop}
    {stopped stopped' : RequestQueue → Prop} {told : Option Refusal × RequestQueue}
    {result : Except ParseError (Parser × Nat)} (first : Outcome inside stopped told result)
    (second : Outcome inside' stopped' told result) :
    Outcome (fun parser queue => inside parser queue ∧ inside' parser queue)
      (fun queue => stopped queue ∧ stopped' queue) told result := by
  obtain ⟨refusal, queue⟩ := told
  cases refusal with
  | some refusal => exact ⟨first, second⟩
  | none => cases result <;> exact ⟨first, second⟩

/-- A step of reading records no error, and does not leave the parser failed unless it
stops. -/
theorem unblamed_step (limits : Limits) {parser : Parser} {queue : RequestQueue}
    (clean : queue.Unblamed) (b : UInt8) (rest : Bytes) :
    Outcome (fun parser queue => parser ≠ .failed ∧ queue.Unblamed) Unblamed
      (deliver (Assembly.listener limits) (parser.step b rest).1 queue)
      (parser.step b rest).2 := by
  have still := (Assembly.deliver_keeps limits (parser.step b rest).1 queue).2 clean
  rcases stepped : parser.step b rest with ⟨events, result⟩
  rw [stepped] at still
  rcases told : deliver (Assembly.listener limits) events queue with ⟨refusal, after⟩
  rw [told] at still
  cases refusal with
  | some refusal => exact still
  | none =>
      cases result with
      | error fault => exact still
      | ok next => exact ⟨Parser.step_not_failed stepped, still⟩

/-- While more is read, octets leave parser and queue in step without any error, or a fault
is recorded behind requests that carry none. -/
theorem Synced.fed {intake : Intake} (synced : intake.Synced false) (limits : Limits)
    (data : Bytes) :
    (∃ n, (intake.feed limits data).result = .ok n ∧ (intake.feed limits data).intake.InStep ∧
        (intake.feed limits data).intake.parser ≠ .failed ∧
        (intake.feed limits data).intake.queue.Unblamed) ∨
      ∃ fault queue, (intake.feed limits data).result = .error fault ∧ FrontReady queue ∧
        queue.Unblamed ∧
        (intake.feed limits data).intake = ⟨.failed, queue.recordFailure fault.status⟩ := by
  obtain ⟨inStep, -, sound, clean⟩ := synced.reading rfl
  have kept := feed_invariant limits
    (fun parser queue => InStep ⟨parser, queue⟩ ∧ parser ≠ .failed ∧ queue.Unblamed)
    (fun queue => FrontReady queue ∧ queue.Unblamed)
    (fun _ _ b rest here =>
      (kept_step limits here.1 b rest).and (unblamed_step limits here.2.2 b rest))
    ⟨inStep, sound, clean⟩ data
  rcases kept with ⟨n, fed, after⟩ | ⟨fault, queue, failed, ⟨front, unblamed⟩, same⟩
  · exact .inl ⟨n, fed, after⟩
  · exact .inr ⟨fault, queue, failed, front, unblamed, same⟩

/-- Octets keep it, when reading goes on just if they were read without a fault and no
upgrade was seen. -/
theorem Synced.feed {intake : Intake} (synced : intake.Synced false) (data : Bytes)
    {closed : Bool}
    (stops : closed = true ↔ (∃ fault, (intake.feed limits data).result = .error fault) ∨
      (intake.feed limits data).intake.parser = .upgraded) :
    Synced (intake.feed limits data).intake closed := by
  rcases synced.fed limits data with
    ⟨n, fed, inStep, sound, clean⟩ | ⟨fault, queue, failed, front, clean, same⟩
  · refine ⟨fun isOpen => ⟨inStep, fun upgraded => ?_, sound, clean⟩, fun shut => ?_,
      intact_dropLast inStep.frontReady clean⟩
    · rw [stops.2 (.inr upgraded)] at isOpen
      cases isOpen
    · -- without a fault, only an upgrade ends reading, and behind it all requests are ready
      rcases stops.1 shut with ⟨fault, failed⟩ | upgraded
      · rw [fed] at failed
        cases failed
      · rw [InStep, upgraded] at inStep
        exact inStep
  · have shut : closed = true := stops.2 (.inl ⟨fault, failed⟩)
    rw [same, shut]
    exact synced_blamed front clean _ _

/-- Reading that gave nothing more keeps it. -/
theorem Synced.cutShort {intake : Intake} (synced : intake.Synced false) (status : Status) :
    Synced (intake.cutShort status) true := by
  obtain ⟨inStep, -, -, clean⟩ := synced.reading rfl
  rw [Intake.cutShort]
  split
  · rename_i idle
    refine ⟨fun isOpen => (by cases isOpen), fun _ => ?_, synced.front⟩
    rw [Parser.isIdle, beq_iff_eq] at idle
    rw [InStep, idle] at inStep
    exact inStep
  · exact synced_blamed inStep.frontReady clean _ _

/-- **An error lands on the message that caused it.**  Whatever is heard while more is read:
if the message being received is to be blamed, its request is the last one and carries the
status, and those before it were read to their end without an error; otherwise no request
carries an error. -/
theorem hear_blames (limits : Limits) {intake : Intake} (synced : intake.Synced false)
    (received : Received) :
    (hear limits intake received).queue.Blames (blame? limits intake received) := by
  obtain ⟨inStep, -, -, clean⟩ := synced.reading rfl
  have cut : ∀ status, (intake.cutShort status).queue.Blames
      (if intake.parser.isIdle then none else some status) := by
    intro status
    rw [Intake.cutShort]
    by_cases idle : intake.parser.isIdle = true
    · rw [if_pos idle, if_pos idle]
      exact clean
    · rw [if_neg idle, if_neg idle]
      exact RequestQueue.recordFailure_blames inStep.frontReady clean status
  cases received with
  | timedOut | failed fault => exact cut _
  | data bytes =>
      cases bytes with
      | nil => exact cut _
      | cons b rest =>
          simp only [blame?, hear]
          rcases synced.fed limits (b :: rest) with
            ⟨n, fed, -, -, clean⟩ | ⟨fault, queue, failed, front, clean, same⟩
          · rw [fed]
            exact clean
          · rw [failed, same]
            exact RequestQueue.recordFailure_blames front clean fault.status

end Intake

end EmbeddedHttp
