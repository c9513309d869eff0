/-
# EmbeddedHttp.Proofs.Request.Arrivals -- the requests that arrive, in order

What is heard on a connection determines the requests that arrive on it, whatever the
connection does with them meanwhile (`Intake.hear`): octets are fed, and when nothing
more comes an error is recorded, unless nothing of a message has come.

Requests that were taken from the front of the queue do not matter to what is read
later.  A queue from which some requests were taken stays the rest of the whole one
(`RequestQueue.Behind`), however much is fed to both (`Intake.feed_behind`).
-/
import EmbeddedHttp.Proofs.Request.InStep
import EmbeddedHttp.Reactor.Action

namespace EmbeddedHttp

set_option autoImplicit false

/-! ## What is heard -/

namespace Intake

/-- The status to record when nothing more comes. -/
def lapse : Received → Status
  | .timedOut => .requestTimeout
  | .data _ => .serviceUnavailable
  | .failed _ => .internalServerError

/-- Record an error on the message that is not complete, if there is one. -/
def cutShort (intake : Intake) (status : Status) : Intake :=
  if intake.parser.isIdle then intake
  else { intake with queue := intake.queue.recordFailure status }

/-- Take what reading gave. -/
def hear (limits : Limits) (intake : Intake) : Received → Intake
  | .data (b :: rest) => (intake.feed limits (b :: rest)).intake
  | received => intake.cutShort (lapse received)

/-- Everything that reading gave, in order. -/
def hearAll (limits : Limits) (heard : List Received) : Intake :=
  heard.foldl (hear limits) Intake.empty

theorem hearAll_append (limits : Limits) (heard : List Received) (received : Received) :
    hearAll limits (heard ++ [received]) = hear limits (hearAll limits heard) received := by
  simp [hearAll]

theorem cutShort_inStep {intake : Intake} (inStep : intake.InStep) (status : Status) :
    (intake.cutShort status).parser = .idle ∧ intake.cutShort status = intake ∨
      AllReady (intake.cutShort status).queue := by
  obtain ⟨parser, queue⟩ := intake
  have recorded : FrontReady queue → AllReady (queue.recordFailure status) := fun front =>
    front.recordFailure status
  cases parser with
  | idle => exact .inl ⟨rfl, rfl⟩
  | failed | upgraded => exact .inr (recorded (AllReady.frontReady inStep))
  | head _ _ | body _ | chunked _ =>
      obtain ⟨front, last, same, all, -⟩ := inStep
      subst same
      exact .inr (recorded (frontReady_push.2 all))

end Intake

/-! ## Queues from which requests were taken -/

namespace RequestQueue

/-- What is left of a queue once some requests were taken from its front, up to the
interim answers that are owed. -/
def Behind (taken : List Request) (whole rest : RequestQueue) : Prop :=
  whole.items.map Request.settled = taken ++ rest.items.map Request.settled

variable {taken : List Request} {whole rest : RequestQueue}

theorem Behind.push (behind : Behind taken whole rest) {one other : Request}
    (same : one.settled = other.settled) : Behind taken (whole.push one) (rest.push other) := by
  rw [Behind] at behind ⊢
  simp [RequestQueue.push, behind, same]

/-- The last request of the rest is that of the whole. -/
theorem Behind.last {front : RequestQueue} {last : Request}
    (behind : Behind taken whole (front.push last)) :
    ∃ (before : RequestQueue) (same : Request), whole = before.push same ∧
      same.settled = last.settled ∧ Behind taken before front := by
  have spelled : whole.items.map Request.settled =
      (taken ++ front.items.map Request.settled) ++ [last.settled] := by
    rw [behind]
    simp [RequestQueue.push]
  obtain ⟨before, final, split, first, second⟩ := List.map_eq_append_iff.1 spelled
  obtain ⟨same, rfl, settled⟩ := List.map_eq_singleton_iff.1 second
  refine ⟨⟨before⟩, same, ?_, settled, first⟩
  obtain ⟨items⟩ := whole
  simp only at split
  rw [split, RequestQueue.push]

theorem isReady_of_settled {one other : Request} (same : one.settled = other.settled) :
    one.isReady = other.isReady := by
  rw [← Request.settled_isReady one, same, Request.settled_isReady]

/-- The error for a message goes to the same place, since taken requests are ready. -/
theorem Behind.recordFailure (behind : Behind taken whole rest)
    (ready : ∀ request ∈ taken, request.isReady = true) (status : Status) :
    Behind taken (whole.recordFailure status) (rest.recordFailure status) := by
  have alone : ∀ queue : RequestQueue, queue.items = [] →
      queue.recordFailure status = queue.push (Request.new.fail status) := by
    intro queue empty
    simp [RequestQueue.recordFailure, RequestQueue.inProgress?, empty]
  rcases rest.empty_or_push with empty | ⟨front, last, rfl⟩
  · have others : whole.items.map Request.settled = taken := by rw [behind, empty]; simp
    rw [alone rest empty]
    rcases whole.empty_or_push with nothing | ⟨before, final, rfl⟩
    · rw [alone whole nothing]
      exact behind.push rfl
    · have member : final.settled ∈ taken := by
        rw [← others]
        exact List.mem_map_of_mem (by simp [RequestQueue.push])
      have finalReady : final.isReady = true := by simpa using ready _ member
      rw [RequestQueue.recordFailure_push, if_pos finalReady]
      exact behind.push rfl
  · obtain ⟨before, same, rfl, settled, further⟩ := behind.last
    rw [RequestQueue.recordFailure_push, RequestQueue.recordFailure_push,
      isReady_of_settled settled]
    split
    · exact behind.push rfl
    · refine further.push ?_
      have alike := congrArg (fun request => request.fail status) settled
      exact alike

end RequestQueue

/-! ## Telling the whole and the rest -/

namespace Assembly

variable {limits : Limits} {taken : List Request}

/-- Events are told to the whole as to the rest, if they begin a message or the message at
hand is in the rest. -/
theorem deliver_behind (limits : Limits) {whole rest : RequestQueue} {events : List Event}
    (behind : RequestQueue.Behind taken whole rest)
    (present : rest.items ≠ [] ∨ events = [] ∨ ∃ more, events = .begin :: more) :
    (deliver (listener limits) events whole).1 = (deliver (listener limits) events rest).1 ∧
      RequestQueue.Behind taken (deliver (listener limits) events whole).2
        (deliver (listener limits) events rest).2 := by
  induction events generalizing whole rest with
  | nil => exact ⟨rfl, behind⟩
  | cons event more ih =>
      -- all but a beginning speaks to the last request, and whole and rest end alike
      by_cases begins : event = .begin
      · subst begins
        simp only [deliver, listener]
        exact ih (behind.push rfl) (.inl (by simp [RequestQueue.push]))
      · have inRest : rest.items ≠ [] := by
          rcases present with inRest | none | ⟨others, same⟩
          · exact inRest
          · cases none
          · exact absurd (List.cons.inj same).1 begins
        obtain ⟨front, last, rfl⟩ := rest.empty_or_push.resolve_left inRest
        obtain ⟨before, same, rfl, settled, further⟩ := behind.last
        by_cases ends : event = .complete
        · subst ends
          simp only [deliver, listener_complete]
          refine ih (further.push ?_) (.inl (by simp [RequestQueue.push]))
          exact congrArg (fun request : Request => { request with complete := true }) settled
        · have inside : event.isInner = true := by
            cases event <;> first | rfl | exact absurd rfl begins | exact absurd rfl ends
          obtain ⟨change, inner, told⟩ := listener_inner limits inside
          obtain ⟨refusal, alike⟩ := inner.alike settled
          simp only [deliver, told]
          rcases one : change same with ⟨refused, changed⟩
          rcases other : change last with ⟨refused', changed'⟩
          rw [one, other] at refusal alike
          simp only at refusal alike
          subst refusal
          cases refused with
          | some _ => exact ⟨rfl, further.push alike⟩
          | none => exact ih (further.push alike) (.inl (by simp [RequestQueue.push]))

end Assembly

namespace Parser

/-- Between messages, the first thing to be told is that a message begins. -/
theorem run_idle_begins (data : Bytes) :
    (Parser.idle.run data).1 = [] ∨ ∃ more, (Parser.idle.run data).1 = .begin :: more := by
  induction data with
  | nil => exact .inl (by simp)
  | cons b rest ih =>
      rw [run_cons]
      by_cases gap : (b == Bytes.cr || b == Bytes.lf) = true
      · simp only [step, gap, if_true, afterStep, List.nil_append, List.drop_zero]
        exact ih
      · simp only [step, gap, if_false, Bool.false_eq_true]
        rcases headStep Head.Scan.start 0 b with ⟨events, result⟩
        cases result with
        | error fault => exact .inr ⟨events, rfl⟩
        | ok after => exact .inr ⟨_, rfl⟩

theorem run_failed (data : Bytes) : (Parser.failed.run data).1 = [] := by
  cases data with
  | nil => simp
  | cons b rest => simp [run_cons, step, afterStep]

end Parser

namespace Intake

variable {taken : List Request}

/-- **Feeding the whole is feeding the rest.** -/
theorem feed_behind (limits : Limits) {whole rest : Intake}
    (behind : RequestQueue.Behind taken whole.queue rest.queue)
    (same : whole.parser = rest.parser) (ready : ∀ request ∈ taken, request.isReady = true)
    (inStep : rest.InStep) (plain : rest.parser ≠ .upgraded) (data : Bytes) :
    (whole.feed limits data).result = (rest.feed limits data).result ∧
      (whole.feed limits data).intake.parser = (rest.feed limits data).intake.parser ∧
      RequestQueue.Behind taken (whole.feed limits data).intake.queue
        (rest.feed limits data).intake.queue := by
  -- inside a message the rest still has its request: only what is ready was taken
  have present : rest.queue.items ≠ [] ∨ (rest.parser.run data).1 = [] ∨
      ∃ more, (rest.parser.run data).1 = .begin :: more := by
    obtain ⟨parser, queue⟩ := rest
    have inMessage : LastOpen queue → queue.items ≠ [] := by
      rintro ⟨front, last, rfl, -, -⟩
      simp [RequestQueue.push]
    cases parser with
    | idle => exact .inr (Parser.run_idle_begins data)
    | failed => exact .inr (.inl (Parser.run_failed data))
    | upgraded => exact absurd rfl plain
    | head _ _ | body _ | chunked _ => exact .inl (inMessage inStep)
  obtain ⟨refusal, after⟩ := Assembly.deliver_behind limits behind present
  rw [feed_eq, feed_eq, same]
  rcases one : deliver (Assembly.listener limits) (rest.parser.run data).1 whole.queue with
    ⟨refused, queue⟩
  rcases other : deliver (Assembly.listener limits) (rest.parser.run data).1 rest.queue with
    ⟨refused', queue'⟩
  rw [one, other] at refusal after
  simp only at refusal after
  subst refusal
  cases refused with
  | some refusal => exact ⟨rfl, rfl, after.recordFailure ready _⟩
  | none =>
      cases (rest.parser.run data).2 with
      | error fault => exact ⟨rfl, rfl, after.recordFailure ready _⟩
      | ok parser => exact ⟨rfl, rfl, after⟩

end Intake

end EmbeddedHttp
