/-
# EmbeddedHttp.Proofs.Request.Inner -- what happens inside a message

All events but the first and the last of a message change the request at hand without
touching whether it is ready, and without asking whether an interim answer is owed
(`Assembly.Inner`).  So they leave alone every other request, and requests that differ
in the interim answer only are changed alike.
-/
import EmbeddedHttp.Proofs.Message.Cuts
import EmbeddedHttp.Proofs.Request.Queue

namespace EmbeddedHttp

set_option autoImplicit false

/-- The request with no interim answer owed. -/
def Request.settled (request : Request) : Request :=
  { request with expectContinue := false }

@[simp] theorem Request.settled_isReady (request : Request) :
    request.settled.isReady = request.isReady := rfl

@[simp] theorem Request.settled_settled (request : Request) :
    request.settled.settled = request.settled := rfl

namespace Assembly

variable {limits : Limits}

/-! ## Changes inside a message -/

/-- A change that leaves alone whether the request is ready, and does not ask whether an
interim answer is owed. -/
structure Inner (change : Request → Change) : Prop where
  complete : ∀ request, (change request).2.complete = request.complete
  failure : ∀ request, (change request).2.failure = request.failure
  refusal : ∀ request, (change request.settled).1 = (change request).1
  settled : ∀ request, (change request.settled).2.settled = (change request).2.settled

/-- Two requests that differ in the interim answer only are changed alike. -/
theorem Inner.alike {change : Request → Change} (inner : Inner change) {one other : Request}
    (same : one.settled = other.settled) :
    (change one).1 = (change other).1 ∧ (change one).2.settled = (change other).2.settled :=
  ⟨by rw [← inner.refusal one, same, inner.refusal other],
    by rw [← inner.settled one, same, inner.settled other]⟩

theorem Inner.isReady {change : Request → Change} (inner : Inner change) (request : Request) :
    (change request).2.isReady = request.isReady := by
  rw [Request.isReady, inner.complete, inner.failure, Request.isReady]

theorem Inner.andThen {first second : Request → Change} (one : Inner first)
    (other : Inner second) :
    Inner fun request => Assembly.andThen (first request) second := by
  have afterFirst : ∀ request, Assembly.andThen (first request) second =
      match (first request).1 with
      | some refusal => (some refusal, (first request).2)
      | none => second (first request).2 := by
    intro request
    obtain ⟨refusal, next⟩ := first request
    cases refusal <;> rfl
  refine ⟨fun request => ?_, fun request => ?_, fun request => ?_, fun request => ?_⟩
  · have here := one.complete request
    simp only [afterFirst]
    split
    · exact here
    · rw [other.complete, here]
  · have here := one.failure request
    simp only [afterFirst]
    split
    · exact here
    · rw [other.failure, here]
  · have there := (other.alike (one.settled request)).1
    simp only [afterFirst, one.refusal]
    split
    · rfl
    · exact there
  · have here := one.settled request
    have there := (other.alike here).2
    simp only [afterFirst, one.refusal]
    split
    · exact here
    · exact there

/-- What two changes in a row both keep. -/
theorem andThen_keeps {α : Type} (field : Request → α) {change : Change}
    {next : Request → Change} {value : α} (before : field change.2 = value)
    (after : ∀ request, field request = value → field (next request).2 = value) :
    field (Assembly.andThen change next).2 = value := by
  obtain ⟨refusal, request⟩ := change
  cases refusal with
  | some refusal => exact before
  | none => exact after request before

theorem inner_storeField : Inner storeField := by
  refine ⟨?_, ?_, ?_, ?_⟩ <;>
  · intro request
    by_cases begun : request.draft.last = .value
    · by_cases full : Request.maxFields ≤ request.headers.length <;>
        simp [storeField, Request.settled, begun, full, accept, refuse]
    · simp [storeField, Request.settled, accept]

theorem inner_addTarget (bytes : Bytes) : Inner (addTarget bytes) := by
  refine ⟨?_, ?_, ?_, ?_⟩ <;>
  · intro request
    by_cases excess : (request.draft.target.write bytes).2.isSome <;>
      simp [addTarget, unlessExcess, Request.settled, excess, accept, refuse]

theorem inner_addName (bytes : Bytes) : Inner (addName bytes) := by
  refine inner_storeField.andThen ⟨?_, ?_, ?_, ?_⟩ <;>
  · intro request
    by_cases excess : (request.draft.name.write bytes).2.isSome <;>
      simp [unlessExcess, Request.settled, excess, accept, refuse]

theorem inner_addValue (bytes : Bytes) : Inner (addValue bytes) := by
  refine ⟨?_, ?_, ?_, ?_⟩ <;>
  · intro request
    by_cases nameless : request.draft.last = .none
    · simp [addValue, Request.settled, nameless, refuse]
    · by_cases excess : (request.draft.value.write bytes).2.isSome <;>
        simp [addValue, unlessExcess, Request.settled, nameless, excess, accept, refuse]

theorem inner_openBody (declared : Option Nat) : Inner (openBody limits declared) := by
  refine ⟨?_, ?_, ?_, ?_⟩ <;>
  · intro request
    cases made : Body.forLength? declared limits.spoolThreshold limits.maxContentLength <;>
      simp [openBody, Request.settled, made, accept]

theorem inner_describe (facts : HeadFacts) : Inner (describe limits facts) := by
  refine ⟨?_, ?_, ?_, ?_⟩ <;>
  · intro request
    cases known : Method.ofBytes? facts.method <;>
      simp [describe, Request.settled, known, accept, refuse, keepsAlive, Request.header?]

theorem inner_checkHandshake (facts : HeadFacts) : Inner (checkHandshake facts) := by
  have decides : ∀ request, ∃ missing : Bool,
      checkHandshake facts request =
          (if missing then refuse .badRequest request else accept request) ∧
        checkHandshake facts request.settled =
          (if missing then refuse .badRequest request.settled else accept request.settled) :=
    fun request => ⟨_, rfl, rfl⟩
  refine ⟨?_, ?_, ?_, ?_⟩ <;>
  · intro request
    obtain ⟨missing, here, there⟩ := decides request
    cases missing <;> simp [here, there, refuse, accept]

theorem inner_noteExpectation (facts : HeadFacts) : Inner (noteExpectation facts) := by
  refine ⟨?_, ?_, ?_, ?_⟩ <;>
  · intro request
    cases version : facts.version with
    | http10 => simp [noteExpectation, Request.settled, version, accept]
    | http11 =>
        cases expected : headerValue? request.headers "expect" with
        | none => simp [noteExpectation, Request.settled, version, expected, accept, Request.header?]
        | some expectation =>
            by_cases known : Text.sameIgnoringCase expectation "100-continue" <;>
              simp [noteExpectation, Request.settled, version, expected, known, accept, refuse,
                Request.header?]

theorem inner_admitFraming (facts : HeadFacts) : Inner (admitFraming limits facts) := by
  refine ⟨?_, ?_, ?_, ?_⟩ <;>
  · intro request
    cases framing : facts.framing with
    | chunked => simp [admitFraming, Request.settled, framing, accept]
    | none =>
        by_cases missing : (request.method.requiresLength && !facts.upgrade) = true <;>
          simp [admitFraming, Request.settled, framing, missing, accept, refuse]
    | length n =>
        by_cases large : limits.maxContentLength < n
        · simp [admitFraming, Request.settled, framing, large, refuse]
        · by_cases empty : n = 0
          · simp [admitFraming, Request.settled, framing, empty, accept]
          · cases made : Body.forLength? (some n) limits.spoolThreshold limits.maxContentLength <;>
              simp [admitFraming, openBody, Request.settled, framing, large, empty, made, accept]

theorem inner_completeHead (limits : Limits) (facts : HeadFacts) :
    Inner (completeHead limits facts) :=
  inner_storeField.andThen <| (inner_describe facts).andThen <|
    (inner_checkHandshake facts).andThen <|
      (inner_noteExpectation facts).andThen (inner_admitFraming facts)

/-- Storing a fragment in the body at hand. -/
theorem inner_writeBody (limits : Limits) (bytes : Bytes) :
    Inner fun request => match request.body with
      | none => accept request
      | some body =>
          match body.write bytes limits.spoolThreshold with
          | (body, none) => accept { request with body := some body }
          | (body, some _) => refuse .internalServerError { request with body := some body } := by
  refine ⟨?_, ?_, ?_, ?_⟩ <;>
  · intro request
    cases place : request.body with
    | none => simp [Request.settled, place, accept]
    | some body =>
        rcases written : body.write bytes limits.spoolThreshold with ⟨next, fault⟩
        cases fault <;> simp [Request.settled, place, written, accept, refuse]

theorem inner_addBody (limits : Limits) (bytes : Bytes) : Inner (addBody limits bytes) := by
  by_cases empty : bytes.isEmpty = true
  · exact ⟨fun _ => by simp [addBody, empty, accept], fun _ => by simp [addBody, empty, accept],
      fun _ => by simp [addBody, empty, accept], fun _ => by simp [addBody, empty, accept]⟩
  · -- a fragment settles the interim answer first, so the two requests become one
    have same : ∀ request, addBody limits bytes request.settled = addBody limits bytes request := by
      intro request
      simp only [addBody, empty, Request.settled]
      rfl
    have kept : ∀ request, (addBody limits bytes request).2.complete = request.complete ∧
        (addBody limits bytes request).2.failure = request.failure := by
      intro request
      have store := inner_writeBody limits bytes
      simp only [addBody, empty, Bool.false_eq_true, if_false]
      split
      · exact ⟨rfl, rfl⟩
      split
      · exact ⟨rfl, rfl⟩
      refine ⟨andThen_keeps (·.complete) ?_ fun other same => (store.complete other).trans same,
        andThen_keeps (·.failure) ?_ fun other same => (store.failure other).trans same⟩
      · split
        · rfl
        · exact (inner_openBody none).complete _
      · split
        · rfl
        · exact (inner_openBody none).failure _
    exact ⟨fun request => (kept request).1, fun request => (kept request).2,
      fun request => by rw [same], fun request => by rw [same]⟩

/-! ## Events inside a message -/

end Assembly

/-- Is the event neither the first nor the last of a message? -/
def Event.isInner : Event → Bool
  | .begin | .complete => false
  | _ => true

theorem Event.isInner_of_isOfHead {event : Event} (ofHead : event.isOfHead = true) :
    event.isInner = true := by
  cases event <;> first | rfl | cases ofHead

namespace Assembly

variable {limits : Limits}

/-- An event inside a message is a change of that kind to the request that began last. -/
theorem listener_inner (limits : Limits) {event : Event} (inside : event.isInner = true) :
    ∃ change, Inner change ∧ ∀ (queue : RequestQueue) (last : Request),
      listener limits event (queue.push last) =
        ((change last).1, queue.push (change last).2) := by
  cases event with
  | begin => cases inside
  | complete => cases inside
  | target bytes => exact ⟨_, inner_addTarget bytes, fun _ _ => by simp [listener, changeLast]⟩
  | fieldName bytes => exact ⟨_, inner_addName bytes, fun _ _ => by simp [listener, changeLast]⟩
  | fieldValue bytes =>
      exact ⟨_, inner_addValue bytes, fun _ _ => by simp [listener, changeLast]⟩
  | head facts =>
      exact ⟨_, inner_completeHead limits facts, fun _ _ => by simp [listener, changeLast]⟩
  | body bytes =>
      by_cases empty : bytes.isEmpty = true
      · refine ⟨accept, ⟨fun _ => rfl, fun _ => rfl, fun _ => rfl, fun _ => rfl⟩, fun _ _ => ?_⟩
        simp [listener, accept, empty]
      · exact ⟨_, inner_addBody limits bytes, fun _ _ => by simp [listener, changeLast, empty]⟩

theorem listener_complete (limits : Limits) (queue : RequestQueue) (last : Request) :
    listener limits .complete (queue.push last) =
      (none, queue.push { last with complete := true }) := by
  simp [listener, changeLast, accept]

/-- Events inside a message leave the other requests alone, and whether the last one is
ready. -/
theorem deliver_inner (limits : Limits) {events : List Event}
    (inside : ∀ e ∈ events, e.isInner = true)
    (front : RequestQueue) (last : Request) :
    ∃ refusal next, deliver (listener limits) events (front.push last) =
        (refusal, front.push next) ∧ next.isReady = last.isReady := by
  induction events generalizing last with
  | nil => exact ⟨none, last, rfl, rfl⟩
  | cons event rest ih =>
      obtain ⟨change, inner, told⟩ := listener_inner limits (inside event List.mem_cons_self)
      have kept := inner.isReady last
      rw [deliver, told]
      rcases changing : change last with ⟨refusal, changed⟩
      rw [changing] at kept
      cases refusal with
      | some refusal => exact ⟨some refusal, changed, rfl, kept⟩
      | none =>
          obtain ⟨refusal, next, further, same⟩ :=
            ih (fun e member => inside e (List.mem_cons_of_mem _ member)) changed
          exact ⟨refusal, next, further, by rw [same]; exact kept⟩

/-! ## Other requests -/

/-- All but a beginning concerns the last request. -/
theorem listener_last (limits : Limits) {event : Event} (inside : event ≠ .begin)
    (front : RequestQueue) (last : Request) :
    ∃ next, (listener limits event (front.push last)).2 = front.push next := by
  by_cases ends : event = .complete
  · subst ends
    exact ⟨_, congrArg Prod.snd (listener_complete limits front last)⟩
  · have inner : event.isInner = true := by
      cases event <;> first | rfl | exact absurd rfl inside | exact absurd rfl ends
    obtain ⟨change, -, told⟩ := listener_inner limits inner
    exact ⟨_, congrArg Prod.snd (told front last)⟩

/-- Without a request there is nothing to change. -/
theorem listener_empty (limits : Limits) {event : Event} (inside : event ≠ .begin)
    {queue : RequestQueue} (empty : queue.items = []) :
    (listener limits event queue).2 = queue := by
  have nothing : ∀ change, (changeLast change queue).2 = queue := by
    intro change
    simp [changeLast, empty]
  cases event with
  | begin => exact absurd rfl inside
  | body bytes =>
      rw [listener]
      split
      · rfl
      · exact nothing _
  | _ => exact nothing _

theorem listener_length (limits : Limits) (event : Event) (queue : RequestQueue) :
    (listener limits event queue).2.items.length =
      queue.items.length + if event = .begin then 1 else 0 := by
  by_cases begins : event = .begin
  · subst begins
    simp [listener, RequestQueue.push]
  · rw [if_neg begins, Nat.add_zero]
    rcases queue.empty_or_push with empty | ⟨front, last, rfl⟩
    · rw [listener_empty limits begins empty]
    · obtain ⟨next, told⟩ := listener_last limits begins front last
      rw [told]
      simp [RequestQueue.push]

/-- As many requests are queued as messages begin. -/
theorem deliver_length {events : List Event} {queue after : RequestQueue}
    (accepted : deliver (listener limits) events queue = (none, after)) :
    after.items.length = queue.items.length + events.count .begin := by
  induction events generalizing queue with
  | nil =>
      cases accepted
      rfl
  | cons event rest ih =>
      obtain ⟨next, heard, further⟩ := Parser.deliver_cons_ok accepted
      have here := listener_length limits event queue
      rw [heard] at here
      rw [ih further, here, List.count_cons]
      simp only [beq_iff_eq]
      omega

/-- A request behind which another one began stays as it is. -/
theorem listener_earlier (limits : Limits) {event : Event} {queue : RequestQueue} {i : Nat}
    {request : Request} (found : queue.items[i]? = some request)
    (earlier : i + 1 < queue.items.length ∨ event = .begin) :
    (listener limits event queue).2.items[i]? = some request := by
  by_cases begins : event = .begin
  · subst begins
    exact RequestQueue.getElem?_push_iff.2 (.inl found)
  rcases queue.empty_or_push with empty | ⟨front, last, rfl⟩
  · rw [empty] at found
    cases found
  obtain ⟨next, told⟩ := listener_last limits begins front last
  rw [told]
  rcases RequestQueue.getElem?_push_iff.1 found with inside | ⟨rfl, -⟩
  · exact RequestQueue.getElem?_push_iff.2 (.inl inside)
  · refine absurd (earlier.resolve_right begins) ?_
    simp [RequestQueue.push]

theorem deliver_earlier (limits : Limits) {events : List Event} {queue : RequestQueue} {i : Nat}
    {request : Request} (found : queue.items[i]? = some request)
    (earlier : i + 1 < queue.items.length ∨ events.head? = some .begin) :
    (deliver (listener limits) events queue).2.items[i]? = some request := by
  induction events generalizing queue with
  | nil => exact found
  | cons event rest ih =>
      have here := listener_earlier limits found
        (earlier.imp_right fun begins => Option.some.inj begins)
      have longer := listener_length limits event queue
      rw [deliver]
      rcases heard : listener limits event queue with ⟨refusal, next⟩
      rw [heard] at here longer
      cases refusal with
      | some refusal => exact here
      | none =>
          refine ih here (.inl ?_)
          rw [longer]
          have inside := (List.getElem?_eq_some_iff.1 found).1
          rcases earlier with before | begins
          · omega
          · rw [if_pos (Option.some.inj begins)]
            omega

end Assembly

end EmbeddedHttp
