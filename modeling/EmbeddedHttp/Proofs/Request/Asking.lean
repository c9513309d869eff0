/-
# EmbeddedHttp.Proofs.Request.Asking -- who waits to be told to go on

A request asks to be told to go on by its head (`Request.Asks`).  It waits for that exactly as
long as its head was read and nothing of its body came (`Request.Matches`); only who was told
to go on meanwhile does not wait any more.  Whatever is told next of a message keeps its request
so, and leaves alone what a head that was read said (`Assembly.listener_matches`).
-/
import EmbeddedHttp.Proofs.Request.Extents

namespace EmbeddedHttp

set_option autoImplicit false

namespace Request

/-- An HTTP/1.1 request whose head expects to be told to go on. -/
def Asks (request : Request) : Prop :=
  request.version = .http11 ∧
    (request.header? "expect").any (Text.sameIgnoringCase · "100-continue") = true

instance (request : Request) : Decidable request.Asks := inferInstanceAs (Decidable (_ ∧ _))

/-- Both have the same version and fields. -/
structure SameHead (request later : Request) : Prop where
  version : later.version = request.version
  headers : later.headers = request.headers

theorem settled_asks (request : Request) : request.settled.Asks ↔ request.Asks := Iff.rfl

theorem SameHead.refl (request : Request) : request.SameHead request := ⟨rfl, rfl⟩

theorem SameHead.trans {request between later : Request} (first : request.SameHead between)
    (second : between.SameHead later) : request.SameHead later :=
  ⟨second.version.trans first.version, second.headers.trans first.headers⟩

theorem SameHead.asks {request later : Request} (same : request.SameHead later) :
    later.Asks ↔ request.Asks := by
  rw [Asks, Asks, header?, header?, same.version, same.headers]

/-- What a request is, given how far its message was read.  It carries no error, it is not
complete before its head was read, and it waits to be told to go on exactly when its head was
read, asks for that, and nothing of the body came; or it was told. -/
structure Matches (told : Prop) (request : Request) (extent : Extent) : Prop where
  sound : request.failure = none
  incomplete : extent.head = false → request.complete = false
  waits : request.expectContinue = true → extent = .bare ∧ request.Asks
  asked : extent = .bare → request.Asks → request.expectContinue = true ∨ told

variable {told : Prop} {request : Request} {extent further : Extent}

theorem matches_new (told : Prop) : Request.new.Matches told .begun where
  sound := rfl
  incomplete _ := rfl
  waits waiting := by cases waiting
  asked bare := by cases bare

/-- A request of which only a part of the head was read does not wait. -/
theorem Matches.fresh (pairs : request.Matches told .begun) :
    request.expectContinue = false := by
  refine Bool.eq_false_iff.2 fun waiting => ?_
  obtain ⟨bare, -⟩ := pairs.waits waiting
  cases bare

/-- Once some of its body came, nothing more that is told matters. -/
theorem Matches.later (pairs : request.Matches told extent) (body : extent.body = true)
    (within : extent.Within further) : request.Matches told further where
  sound := pairs.sound
  incomplete unread := by
    refine pairs.incomplete (Bool.eq_false_iff.2 fun read => ?_)
    rw [within.head read] at unread
    cases unread
  waits waiting := by
    rw [(pairs.waits waiting).1] at body
    cases body
  asked bare := by
    have came := within.body body
    rw [bare] at came
    cases came

/-- Who was told to go on does not wait any more. -/
theorem Matches.settled (pairs : request.Matches told extent) :
    request.settled.Matches True extent where
  sound := pairs.sound
  incomplete := pairs.incomplete
  waits waiting := by cases waiting
  asked _ _ := .inr trivial

theorem Matches.mono {other : Prop} (pairs : request.Matches told extent)
    (implies : told → other) : request.Matches other extent where
  sound := pairs.sound
  incomplete := pairs.incomplete
  waits := pairs.waits
  asked bare asks := (pairs.asked bare asks).imp_right implies

end Request

namespace Assembly

open Request (Matches SameHead)

variable {limits : Limits} {told : Prop} {request next : Request} {extent : Extent}

/-! ## Changes -/

theorem andThen_ok {change : Change} {further : Request → Change}
    (accepted : andThen change further = (none, next)) :
    ∃ between, change = (none, between) ∧ further between = (none, next) := by
  obtain ⟨refusal, between⟩ := change
  cases refusal with
  | some refusal => cases accepted
  | none => exact ⟨between, rfl, accepted⟩

/-- A field is stored without asking for anything. -/
theorem storeField_expectContinue (request : Request) :
    (storeField request).2.expectContinue = request.expectContinue := by
  rw [storeField]
  split
  · split <;> rfl
  · rfl

theorem describe_ok {facts : HeadFacts} (accepted : describe limits facts request = (none, next)) :
    next.version = facts.version ∧ next.expectContinue = request.expectContinue := by
  rw [describe] at accepted
  split at accepted
  · cases accepted
  · cases accepted
    exact ⟨rfl, rfl⟩

theorem checkHandshake_ok {facts : HeadFacts}
    (accepted : checkHandshake facts request = (none, next)) : next = request := by
  simp only [checkHandshake] at accepted
  split at accepted
  · cases accepted
  · cases accepted
    rfl

/-- Who asks to be told to go on waits for it. -/
theorem noteExpectation_ok {facts : HeadFacts} (version : request.version = facts.version)
    (fresh : request.expectContinue = false)
    (accepted : noteExpectation facts request = (none, next)) :
    request.SameHead next ∧ (next.expectContinue = true ↔ next.Asks) := by
  simp only [noteExpectation] at accepted
  split at accepted
  · rename_i expectation http11 expects
    split at accepted
    · rename_i known
      cases accepted
      refine ⟨⟨rfl, rfl⟩, fun _ => ⟨version.trans http11, ?_⟩, fun _ => rfl⟩
      rw [Request.header?] at expects ⊢
      rw [expects]
      exact known
    · cases accepted
  · rename_i other
    cases accepted
    refine ⟨.refl request, fun waiting => ?_, fun asks => ?_⟩
    · rw [fresh] at waiting
      cases waiting
    · obtain ⟨http11, expects⟩ := asks
      cases found : request.header? "expect" with
      | none =>
          rw [found] at expects
          cases expects
      | some expectation => exact (other expectation (version.symm.trans http11) found).elim

theorem admitFraming_ok {facts : HeadFacts}
    (accepted : admitFraming limits facts request = (none, next)) :
    request.SameHead next ∧ next.expectContinue = request.expectContinue := by
  simp only [admitFraming, openBody] at accepted
  repeat' split at accepted
  all_goals
    cases accepted
    try exact ⟨⟨rfl, rfl⟩, rfl⟩

/-- **A complete head that is accepted makes the request wait exactly when it asks to be told
to go on.** -/
theorem completeHead_asks {facts : HeadFacts} (fresh : request.expectContinue = false)
    (accepted : completeHead limits facts request = (none, next)) :
    next.expectContinue = true ↔ next.Asks := by
  obtain ⟨stored, storing, accepted⟩ := andThen_ok accepted
  obtain ⟨described, describing, accepted⟩ := andThen_ok accepted
  obtain ⟨checked, checking, accepted⟩ := andThen_ok accepted
  obtain ⟨noted, noting, admitting⟩ := andThen_ok accepted
  have storedFresh : stored.expectContinue = false := by
    have same := storeField_expectContinue request
    rw [storing] at same
    exact same.trans fresh
  obtain ⟨version, same⟩ := describe_ok describing
  obtain rfl := checkHandshake_ok checking
  obtain ⟨-, iff⟩ := noteExpectation_ok version (same.trans storedFresh) noting
  obtain ⟨head, kept⟩ := admitFraming_ok admitting
  rw [kept, head.asks]
  exact iff

/-- A fragment of a body leaves the head alone, and then nobody waits any more. -/
theorem addBody_told (limits : Limits) {bytes : Bytes} (nonempty : bytes.isEmpty = false)
    (request : Request) :
    request.SameHead (addBody limits bytes request).2 ∧
      (addBody limits bytes request).2.expectContinue = false := by
  have kept {α : Type} := addBody_keeps (α := α) limits nonempty request
  exact ⟨⟨kept (·.version) fun _ _ => rfl, kept (·.headers) fun _ _ => rfl⟩,
    kept (·.expectContinue) fun _ _ => rfl⟩

/-! ## The last request -/

/-- A part of a head changes nothing about who waits. -/
theorem matches_field {change : Request → Change} (inner : Inner change)
    (kept : (change request).2.expectContinue = request.expectContinue)
    (pairs : request.Matches told .begun) : (change request).2.Matches told .begun where
  sound := (inner.failure request).trans pairs.sound
  incomplete unread := (inner.complete request).trans (pairs.incomplete unread)
  waits waiting := by
    rw [kept, pairs.fresh] at waiting
    cases waiting
  asked bare := by cases bare

theorem matches_head {facts : HeadFacts} (pairs : request.Matches told .begun)
    (accepted : completeHead limits facts request = (none, next)) : next.Matches told .bare := by
  have failure := (inner_completeHead limits facts).failure request
  rw [accepted] at failure
  have waits := completeHead_asks pairs.fresh accepted
  exact ⟨failure.trans pairs.sound, fun unread => (by cases unread), fun waiting => ⟨rfl, waits.1 waiting⟩,
    fun _ asks => .inl (waits.2 asks)⟩

theorem matches_body (limits : Limits) {bytes : Bytes} (nonempty : bytes.isEmpty = false)
    (headRead : extent.head = true) (pairs : request.Matches told extent) :
    (addBody limits bytes request).2.Matches told (extent.after (.body bytes)) where
  sound := ((inner_addBody limits bytes).failure request).trans pairs.sound
  incomplete unread := by
    rw [show (extent.after (.body bytes)).head = true from headRead] at unread
    cases unread
  waits waiting := by
    rw [(addBody_told limits nonempty request).2] at waiting
    cases waiting
  asked bare := by
    simp [Extent.after, nonempty, Extent.bare] at bare

/-- What the last request comes to when something more is told of its message, which is read as
far as `after` then.  When the request refuses it and is ready all the same, it was complete
before, and some of its body has come. -/
structure Turns (told : Prop) (request : Request) (extent : Extent) (refusal : Option Refusal)
    (next : Request) (after : Extent) : Prop where
  head : extent.head = true → request.SameHead next
  accepted : refusal = none → next.Matches told after
  refused : refusal ≠ none → next.isReady = true → next.Matches told after ∧ after.body = true

/-- **What is told next of a message changes its request as it changes how far the message was
read.** -/
theorem listener_matches (limits : Limits) {event : Event} {before : List Extent}
    (follows : event.Follows (before ++ [extent])) (inside : event ≠ .begin)
    (pairs : request.Matches told extent) (front : RequestQueue) :
    ∃ refusal next, listener limits event (front.push request) = (refusal, front.push next) ∧
      Turns told request extent refusal next (extent.after event) := by
  obtain ⟨_, last, same, place⟩ := follows.resolve_left inside
  obtain rfl : extent = last := by
    have ends := (List.append_inj' same rfl).2
    cases ends
    rfl
  clear same
  rcases place with ⟨ofHead, rfl⟩ | ⟨behind, headRead⟩
  · -- inside a head the request is not ready, whether the event is accepted or not
    have tells : ∀ change : Request → Change, Inner change →
        ((change request).1 = none →
          (change request).2.Matches told (Extent.begun.after event)) →
        listener limits event (front.push request) =
          ((change request).1, front.push (change request).2) →
        ∃ refusal next, listener limits event (front.push request) = (refusal, front.push next) ∧
          Turns told request .begun refusal next (Extent.begun.after event) := by
      intro change inner accepted heard
      refine ⟨_, _, heard, ⟨fun read => (by cases read), accepted, fun _ ready => ?_⟩⟩
      rw [inner.isReady, Request.isReady, pairs.sound, pairs.incomplete rfl] at ready
      cases ready
    cases event with
    | begin | body _ | complete => cases ofHead
    | target bytes =>
        refine tells _ (inner_addTarget bytes) (fun _ => ?_) (changeLast_push _ _ _)
        refine matches_field (inner_addTarget bytes) ?_ pairs
        simp only [addTarget, unlessExcess]
        split <;> rfl
    | fieldName bytes =>
        refine tells _ (inner_addName bytes) (fun _ => ?_) (changeLast_push _ _ _)
        refine matches_field (inner_addName bytes) ?_ pairs
        refine andThen_keeps (·.expectContinue) (storeField_expectContinue request)
          fun other same => ?_
        simp only [unlessExcess]
        split <;> exact same
    | fieldValue bytes =>
        refine tells _ (inner_addValue bytes) (fun _ => ?_) (changeLast_push _ _ _)
        refine matches_field (inner_addValue bytes) ?_ pairs
        simp only [addValue, unlessExcess]
        split
        · rfl
        · split <;> rfl
    | head facts =>
        refine tells _ (inner_completeHead limits facts) (fun accepted => ?_)
          (changeLast_push _ _ _)
        exact matches_head pairs (Prod.ext accepted rfl)
  · cases event with
    | begin | target _ | fieldName _ | fieldValue _ | head _ => cases behind
    | complete =>
        refine ⟨none, _, listener_complete limits front request, ⟨fun _ => ⟨rfl, rfl⟩,
          fun _ => ⟨pairs.sound, fun unread => ?_, pairs.waits, pairs.asked⟩,
          fun refused => absurd rfl refused⟩⟩
        rw [show (extent.after .complete).head = true from headRead] at unread
        cases unread
    | body bytes =>
        cases empty : bytes.isEmpty with
        | true =>
            have same : extent.after (.body bytes) = extent := by
              simp [Extent.after, empty]
            rw [same]
            exact ⟨none, request, by rw [listener, if_pos empty],
              ⟨fun _ => .refl request, fun _ => pairs, fun refused => absurd rfl refused⟩⟩
        | false =>
            have matched := matches_body limits empty headRead pairs
            have heard : listener limits (.body bytes) (front.push request) =
                ((addBody limits bytes request).1, front.push (addBody limits bytes request).2) := by
              rw [listener, if_neg (by rw [empty]; decide), changeLast_push]
            exact ⟨_, _, heard, ⟨fun _ => (addBody_told limits empty request).1, fun _ => matched,
              fun _ _ => ⟨matched, by simp [Extent.after, empty]⟩⟩⟩

end Assembly

end EmbeddedHttp
