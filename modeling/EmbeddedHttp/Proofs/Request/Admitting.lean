/-
# EmbeddedHttp.Proofs.Request.Admitting -- which bodies are admitted, and what is kept of them

A head that is in order otherwise is refused when it declares too much, and a body in chunks
once too much of it came (`Assembly.Oversized`).  While neither is so, the request holds what
came of its body, spooled when the whole of it exceeds the threshold (`Assembly.Filling`).
None of this depends on how the body is cut (`Intake.feedAll_admits`), as long as no sum on the
way leaves the 64-bit range (`Assembly.InRange`): a body in memory needs a limit whose
successor is a 64-bit number, and what came is counted before it is compared.
-/
import EmbeddedHttp.Proofs.Request.Asking
import EmbeddedHttp.Proofs.Request.Building
import EmbeddedHttp.Proofs.Request.Heads

namespace EmbeddedHttp

set_option autoImplicit false

namespace Assembly

variable {limits roomier : Limits} {facts : HeadFacts} {data : Bytes} {request next : Request}

/-! ## What is asked of a body -/

/-- The body is larger than allowed: as its head declares, or in chunks by what came of it. -/
def Oversized (limits : Limits) (facts : HeadFacts) (data : Bytes) : Prop :=
  match facts.framing with
  | .none => False
  | .length n => limits.maxContentLength < n
  | .chunked => limits.maxContentLength < data.length

/-- There is a place for the body, if there is to be any: on disk from the start, or in memory
under a limit that can be counted beyond. -/
def HasPlace (limits : Limits) (facts : HeadFacts) (data : Bytes) : Prop :=
  limits.maxContentLength + 1 < Bytes.wordBound ∨
    match facts.framing with
    | .none => True
    | .length n => n = 0 ∨ limits.maxContentLength < n ∨ limits.spoolThreshold < n
    | .chunked => data = []

/-- With `size` octets before them, the fragments are counted without a sum that leaves the
64-bit range, up to the one with which the body is too large. -/
def Countable (limits : Limits) : Nat → List Bytes → Prop
  | _, [] => True
  | size, first :: others => size ≤ limits.maxContentLength →
      size + first.length < Bytes.wordBound ∧ Countable limits (size + first.length) others

/-- No sum on the way leaves the 64-bit range: neither one that makes a place for the body, nor
one that counts what came of it. -/
def InRange (limits : Limits) (facts : HeadFacts) (bodies : List Bytes) : Prop :=
  HasPlace limits facts bodies.flatten ∧ (facts.framing = .chunked → Countable limits 0 bodies)

instance decidableOversized (limits : Limits) :
    ∀ (facts : HeadFacts) (data : Bytes), Decidable (Oversized limits facts data)
  | ⟨_, _, .none, _⟩, _ => inferInstanceAs (Decidable False)
  | ⟨_, _, .length n, _⟩, _ => inferInstanceAs (Decidable (_ < n))
  | ⟨_, _, .chunked, _⟩, data => inferInstanceAs (Decidable (_ < data.length))

instance decidableHasPlace (limits : Limits) :
    ∀ (facts : HeadFacts) (data : Bytes), Decidable (HasPlace limits facts data)
  | ⟨_, _, .none, _⟩, _ => inferInstanceAs (Decidable (_ ∨ True))
  | ⟨_, _, .length n, _⟩, _ => inferInstanceAs (Decidable (_ ∨ n = 0 ∨ _ < n ∨ _ < n))
  | ⟨_, _, .chunked, _⟩, data => inferInstanceAs (Decidable (_ ∨ data = []))

instance decidableCountable (limits : Limits) :
    ∀ (size : Nat) (bodies : List Bytes), Decidable (Countable limits size bodies)
  | _, [] => inferInstanceAs (Decidable True)
  | size, first :: others =>
      have := decidableCountable limits (size + first.length) others
      inferInstanceAs (Decidable (_ → _ ∧ _))

instance (bodies : List Bytes) : Decidable (InRange limits facts bodies) :=
  inferInstanceAs (Decidable (_ ∧ _))

/-! ## Requests whose head is being read -/

/-- Nothing is known of the body, and no error. -/
structure Fresh (request : Request) : Prop where
  incomplete : request.complete = false
  sound : request.failure = none
  declared : request.declaredLength = none
  body : request.body = none

theorem fresh_new : Fresh Request.new := ⟨rfl, rfl, rfl, rfl⟩

/-- Storing a field says nothing of the body. -/
theorem Fresh.storeField (fresh : Fresh request) : Fresh (Assembly.storeField request).2 := by
  rw [Assembly.storeField]
  split
  · split
    · exact fresh
    · exact ⟨fresh.incomplete, fresh.sound, fresh.declared, fresh.body⟩
  · exact fresh

theorem Fresh.write (fresh : Fresh request) (excess : Option Nat) (draft : Draft) :
    Fresh (unlessExcess excess { request with draft := draft }).2 := by
  rw [unlessExcess]
  split <;> exact ⟨fresh.incomplete, fresh.sound, fresh.declared, fresh.body⟩

/-- Neither does anything of a head up to its end. -/
theorem Fresh.ofHead (fresh : Fresh request) (limits : Limits) {event : Event}
    (ofHead : event.isOfHead = true) (noEnd : ∀ facts, event ≠ .head facts)
    (front : RequestQueue) :
    ∃ next, (listener limits event (front.push request)).2 = front.push next ∧ Fresh next := by
  cases event with
  | head facts => exact absurd rfl (noEnd facts)
  | target bytes =>
      rw [listener, changeLast_push]
      exact ⟨_, rfl, fresh.write _ _⟩
  | fieldName bytes =>
      rw [listener, changeLast_push]
      refine ⟨_, rfl, ?_⟩
      have stored := fresh.storeField
      rw [addName]
      generalize Assembly.storeField request = change at stored ⊢
      obtain ⟨refusal, next⟩ := change
      cases refusal with
      | some refusal => exact stored
      | none => exact stored.write _ _
  | fieldValue bytes =>
      rw [listener, changeLast_push]
      refine ⟨_, rfl, ?_⟩
      rw [addValue]
      split
      · exact fresh
      · exact fresh.write _ _
  | _ => cases ofHead

theorem Fresh.deliver (fresh : Fresh request) (limits : Limits) {events : List Event}
    (fields : ∀ e ∈ events, e.isOfHead = true ∧ ∀ facts, e ≠ .head facts)
    (front : RequestQueue) :
    ∃ next, (EmbeddedHttp.deliver (listener limits) events (front.push request)).2 =
      front.push next ∧ Fresh next := by
  induction events generalizing request with
  | nil => exact ⟨request, rfl, fresh⟩
  | cons event rest ih =>
      obtain ⟨ofHead, noEnd⟩ := fields event List.mem_cons_self
      obtain ⟨middle, told, still⟩ := fresh.ofHead limits ofHead noEnd front
      rw [EmbeddedHttp.deliver]
      rcases heard : listener limits event (front.push request) with ⟨refusal, after⟩
      rw [heard] at told
      cases refusal with
      | some refusal => exact ⟨middle, told, still⟩
      | none =>
          dsimp only at told ⊢
          rw [told]
          exact ih still fun e member => fields e (List.mem_cons_of_mem _ member)

/-! ## A complete head -/

/-- Of the limits a complete head asks only whether connections are kept, before it comes to
the framing. -/
theorem Fresh.completeHead (fresh : Fresh request) (same : roomier.keepAlive = limits.keepAlive)
    (sound : (Assembly.completeHead roomier facts request).1 = none) :
    ∃ next, Fresh next ∧ (admitFraming roomier facts next).1 = none ∧
      Assembly.completeHead limits facts request = admitFraming limits facts next := by
  rcases outcome : Assembly.completeHead roomier facts request with ⟨refusal, admitted⟩
  rw [outcome] at sound
  obtain rfl : refusal = none := sound
  obtain ⟨stored, storing, outcome⟩ := andThen_ok outcome
  obtain ⟨described, describing, outcome⟩ := andThen_ok outcome
  obtain ⟨checked, checking, outcome⟩ := andThen_ok outcome
  obtain ⟨noted, noting, admitting⟩ := andThen_ok outcome
  have filed : Fresh stored := by
    have still := fresh.storeField
    rwa [storing] at still
  have alike : describe limits facts stored = (none, described) := by
    rw [← describing, describe, describe, keepsAlive, keepsAlive, same]
  have known : Fresh described := by
    rw [describe] at describing
    split at describing
    · cases describing
    · cases describing
      exact ⟨filed.incomplete, filed.sound, filed.declared, filed.body⟩
  obtain rfl := checkHandshake_ok checking
  have expected : Fresh noted := by
    rw [noteExpectation] at noting
    repeat' split at noting
    all_goals
      cases noting
      try exact ⟨known.incomplete, known.sound, known.declared, known.body⟩
  refine ⟨noted, expected, by rw [admitting], ?_⟩
  simp only [Assembly.completeHead, storing, andThen, alike, checking, noting]

/-! ## A body that comes -/

/-- How long the body is: as its head declares, or in chunks what came of it. -/
def total (facts : HeadFacts) (data : Bytes) : Nat := facts.bodyLength.getD data.length

/-- The length that the head declared. -/
def declaredBy (facts : HeadFacts) : Option Nat :=
  match facts.framing with
  | .length n => some n
  | _ => none

/-- A request behind its head, of whose body `data` came. -/
structure Filling (limits : Limits) (facts : HeadFacts) (data : Bytes) (request : Request) :
    Prop where
  incomplete : request.complete = false
  sound : request.failure = none
  declared : request.declaredLength = declaredBy facts
  holds : Holds limits data request.body
  /-- There is a body once something came of it, or is to come. -/
  placed : request.body = none ↔ data = [] ∧ total facts data = 0
  spooled : request.body.any Body.isSpooled = decide (limits.spoolThreshold < total facts data)

theorem total_eq {facts : HeadFacts} {data : Bytes} {n : Nat} (known : facts.bodyLength = some n) :
    total facts data = n := by
  rw [total, known, Option.getD_some]

theorem total_unknown {facts : HeadFacts} {data : Bytes} (unknown : facts.bodyLength = none) :
    total facts data = data.length := by
  rw [total, unknown, Option.getD_none]

/-- A head that declares too much is refused. -/
theorem admitFraming_oversized (large : Oversized limits facts []) :
    admitFraming limits facts request = refuse .payloadTooLarge request := by
  cases framing : facts.framing with
  | none => simp [Oversized, framing] at large
  | chunked => simp [Oversized, framing] at large
  | length n =>
      rw [Oversized, framing] at large
      simp only [admitFraming, framing]
      exact if_pos large

/-- A head without a place for what it declares overflows. -/
theorem admitFraming_overflows {n : Nat} (framing : facts.framing = .length n)
    (homeless : ¬ HasPlace limits facts data) :
    (admitFraming limits facts request).1 = some .overflow := by
  simp only [HasPlace, framing, not_or] at homeless
  obtain ⟨word, positive, small, inMemory⟩ := homeless
  have missing : Body.forLength? (some n) limits.spoolThreshold limits.maxContentLength = none := by
    rw [Body.forLength?_eq_none]
    refine ⟨by omega, ?_⟩
    rintro _ ⟨⟩
    omega
  simp only [admitFraming, framing, if_neg small, if_neg positive, openBody, missing]

/-- **A head that declares what is allowed is admitted**, and a body that is declared gets its
place. -/
theorem Fresh.admitFraming (fresh : Fresh request)
    (sound : (Assembly.admitFraming roomier facts request).1 = none)
    (small : ¬ Oversized limits facts []) (place : HasPlace limits facts []) :
    ∃ next, Assembly.admitFraming limits facts request = (none, next) ∧
      Filling limits facts [] next := by
  have bare : ∀ declared, declared = declaredBy facts → total facts [] = 0 →
      Filling limits facts [] { request with declaredLength := declared } := by
    intro declared same empty
    refine ⟨fresh.incomplete, fresh.sound, same, ?_, ?_, ?_⟩ <;> simp only [fresh.body]
    · rfl
    · simp [empty]
    · simp [empty]
  cases framing : facts.framing with
  | none =>
      have known : facts.bodyLength = some 0 := by rw [HeadFacts.bodyLength, framing]
      have next := bare none (by rw [declaredBy, framing]) (total_eq known)
      rw [show ({ request with declaredLength := none } : Request) = request by
        rw [← fresh.declared]] at next
      refine ⟨request, ?_, next⟩
      simp only [Assembly.admitFraming, framing] at sound ⊢
      split at sound
      · cases sound
      · rename_i given
        exact if_neg given
  | chunked =>
      have unknown : facts.bodyLength = none := by rw [HeadFacts.bodyLength, framing]
      have next := bare none (by rw [declaredBy, framing]) (total_unknown unknown)
      rw [show ({ request with declaredLength := none } : Request) = request by
        rw [← fresh.declared]] at next
      refine ⟨request, ?_, next⟩
      simp only [Assembly.admitFraming, framing]
      rfl
  | length n =>
      have known : facts.bodyLength = some n := by rw [HeadFacts.bodyLength, framing]
      have declared : some n = declaredBy facts := by rw [declaredBy, framing]
      simp only [Oversized, HasPlace, framing] at small place
      simp only [Assembly.admitFraming, framing, if_neg small]
      by_cases empty : n = 0
      · rw [if_pos empty]
        exact ⟨_, rfl, bare _ declared (by rw [total_eq known, empty])⟩
      · rw [if_neg empty, openBody]
        have possible : ¬ Body.forLength? (some n) limits.spoolThreshold
            limits.maxContentLength = none := by
          rw [Body.forLength?_eq_none]
          rintro ⟨word, inMemory⟩
          have := inMemory n rfl
          omega
        obtain ⟨body, made⟩ := Option.ne_none_iff_exists'.1 possible
        rw [made]
        refine ⟨_, rfl, fresh.incomplete, fresh.sound, declared, Body.forLength?_room made, ?_, ?_⟩
        · simp [total_eq known, empty]
        · rw [total_eq known]
          exact Body.forLength?_isSpooled made

/-- **A fragment of a body that is small enough is stored.** -/
theorem Filling.addBody {fragment : Bytes} (filling : Filling limits facts data request)
    (word : limits.maxContentLength < Bytes.wordBound) (nonempty : fragment ≠ [])
    (due : ∀ n ∈ facts.bodyLength, data.length + fragment.length ≤ n)
    (small : data.length + fragment.length ≤ limits.maxContentLength)
    (place : request.body = none → limits.maxContentLength + 1 < Bytes.wordBound) :
    ∃ next, Assembly.addBody limits fragment request = (none, next) ∧ next.body ≠ none ∧
      Filling limits facts (data ++ fragment) next := by
  obtain ⟨body, added, holds, spooled⟩ :=
    addBody_stores filling.holds (Nat.lt_of_le_of_lt small word) small nonempty place
  refine ⟨_, added, by simp, filling.incomplete, filling.sound, filling.declared, holds, ?_, ?_⟩
  · simp [nonempty]
  · rw [Option.any_some, spooled, filling.spooled]
    cases known : facts.bodyLength with
    | none =>
        rw [total_unknown known, total_unknown known, List.length_append]
        simp only [← Bool.decide_or, decide_eq_decide]
        omega
    | some n =>
        have within := due n known
        rw [total_eq known, total_eq known]
        simp only [← Bool.decide_or, decide_eq_decide]
        omega

/-- A fragment that makes the body too large is refused. -/
theorem Filling.addBody_oversized {fragment : Bytes} (filling : Filling limits facts data request)
    (nonempty : fragment ≠ []) (counted : data.length + fragment.length < Bytes.wordBound)
    (large : limits.maxContentLength < data.length + fragment.length) :
    Assembly.addBody limits fragment request =
      refuse .payloadTooLarge { request with expectContinue := false } := by
  have some_octets : fragment.isEmpty = false := List.isEmpty_eq_false_iff.2 nonempty
  have size := filling.holds.size
  simp only [Assembly.addBody, some_octets, Bool.false_eq_true, if_false, size,
    if_neg (Nat.not_le.2 counted), if_pos large]

/-- A fragment with which the body cannot be counted, or for which there is no place, overflows. -/
theorem Filling.addBody_overflows {fragment : Bytes} (filling : Filling limits facts data request)
    (nonempty : fragment ≠ [])
    (homeless : Bytes.wordBound ≤ data.length + fragment.length ∨
      request.body = none ∧ Bytes.wordBound ≤ limits.maxContentLength + 1) :
    (Assembly.addBody limits fragment request).1 = some .overflow := by
  have some_octets : fragment.isEmpty = false := List.isEmpty_eq_false_iff.2 nonempty
  have size := filling.holds.size
  by_cases counted : Bytes.wordBound ≤ data.length + fragment.length
  · simp only [Assembly.addBody, some_octets, Bool.false_eq_true, if_false, size, if_pos counted]
  · obtain ⟨absent, word⟩ := homeless.resolve_left counted
    exact Assembly.addBody_overflows absent nonempty (by omega) word

/-- **Fragments of a body are stored as long as it is small enough**, and the first one with
which it is not is refused. -/
theorem Filling.deliver {bodies : List Bytes} (filling : Filling limits facts data request)
    (word : limits.maxContentLength < Bytes.wordBound) (proper : ∀ bytes ∈ bodies, bytes ≠ [])
    (due : ∀ n ∈ facts.bodyLength, data.length + bodies.flatten.length ≤ n)
    (within : data.length ≤ limits.maxContentLength)
    (place : request.body = none → bodies = [] ∨ limits.maxContentLength + 1 < Bytes.wordBound)
    (front : RequestQueue) :
    ∃ refusal next, EmbeddedHttp.deliver (listener limits) (bodies.map .body)
        (front.push request) = (refusal, front.push next) ∧
      (¬ Countable limits data.length bodies → refusal = some .overflow) ∧
      (data.length + bodies.flatten.length ≤ limits.maxContentLength → refusal = none ∧
        Filling limits facts (data ++ bodies.flatten) next) ∧
      (limits.maxContentLength < data.length + bodies.flatten.length →
        Countable limits data.length bodies →
        refusal = some (.status .payloadTooLarge) ∧ next.isReady = false) := by
  induction bodies generalizing data request with
  | nil =>
      refine ⟨none, request, rfl, fun not => absurd trivial not,
        fun _ => ⟨rfl, by simpa using filling⟩, fun large => ?_⟩
      simp at large
      omega
  | cons first others ih =>
      have nonempty := proper first List.mem_cons_self
      have some_octets : first.isEmpty = false := List.isEmpty_eq_false_iff.2 nonempty
      have counts : Countable limits data.length (first :: others) ↔
          data.length + first.length < Bytes.wordBound ∧
            Countable limits (data.length + first.length) others :=
        ⟨fun counted => counted within, fun both _ => both⟩
      simp only [List.flatten_cons, List.length_append] at due ⊢
      simp only [List.map_cons, EmbeddedHttp.deliver, listener, some_octets, Bool.false_eq_true,
        if_false, changeLast_push, counts]
      by_cases small : data.length + first.length ≤ limits.maxContentLength
      · obtain ⟨middle, added, present, still⟩ := filling.addBody word nonempty
          (fun n known => by have := due n known; omega) small
          fun absent => (place absent).resolve_left (by simp)
        obtain ⟨refusal, next, told, overflows, stores, refuses⟩ := ih still
          (fun bytes member => proper bytes (List.mem_cons_of_mem _ member))
          (by simpa [Nat.add_assoc] using due) (by rwa [List.length_append])
          (fun absent => absurd absent present)
        simp only [List.length_append, List.append_assoc, Nat.add_assoc] at overflows stores refuses
        rw [added]
        exact ⟨refusal, next, told,
          fun not => overflows fun counted => not ⟨by omega, counted⟩,
          stores, fun large counted => refuses large counted.2⟩
      · by_cases counted : data.length + first.length < Bytes.wordBound
        · rw [filling.addBody_oversized nonempty counted (by omega)]
          have stops : ∀ size, limits.maxContentLength < size → Countable limits size others := by
            intro size large
            cases others with
            | nil => trivial
            | cons second rest => exact fun within => by omega
          refine ⟨_, _, rfl, fun not => absurd ⟨counted, stops _ (by omega)⟩ not,
            fun within => by omega, fun _ _ => ⟨rfl, ?_⟩⟩
          simp [Request.isReady, refuse, filling.incomplete, filling.sound]
        · have overflows := filling.addBody_overflows nonempty (.inl (Nat.not_lt.1 counted))
          rcases added : Assembly.addBody limits first request with ⟨refusal, next⟩
          rw [added] at overflows
          obtain rfl : refusal = some .overflow := overflows
          exact ⟨_, next, rfl, fun _ => rfl, fun within => by omega,
            fun _ both => absurd both.1 counted⟩

/-! ## A whole message -/

/-- Whether a head is refused for its size shows at its end, unless the body comes in chunks. -/
theorem oversized_iff (bodies : List Bytes) :
    Oversized limits facts bodies.flatten ↔ Oversized limits facts [] ∨
      facts.framing = .chunked ∧ limits.maxContentLength < bodies.flatten.length := by
  cases framing : facts.framing <;> simp [Oversized, framing]

/-- Without chunks, a body that is due and allowed is small enough. -/
theorem small_of_due {bodies : List Bytes}
    (due : ∀ n ∈ facts.bodyLength, bodies.flatten.length ≤ n)
    (small : ¬ Oversized limits facts bodies.flatten) :
    bodies.flatten.length ≤ limits.maxContentLength := by
  cases framing : facts.framing with
  | none =>
      have := due 0 (by rw [HeadFacts.bodyLength, framing]; rfl)
      omega
  | length n =>
      have := due n (by rw [HeadFacts.bodyLength, framing]; rfl)
      simp only [Oversized, framing] at small
      omega
  | chunked =>
      simp only [Oversized, framing] at small
      omega

/-- Behind a head that is admitted, a body that is to come has its place, or can get one. -/
theorem Filling.place {bodies : List Bytes} (filling : Filling limits facts [] request)
    (due : ∀ n ∈ facts.bodyLength, bodies.flatten.length ≤ n)
    (proper : ∀ bytes ∈ bodies, bytes ≠ []) (place : HasPlace limits facts bodies.flatten)
    (absent : request.body = none) :
    bodies = [] ∨ limits.maxContentLength + 1 < Bytes.wordBound := by
  have none : total facts [] = 0 := (filling.placed.1 absent).2
  rcases place with word | place
  · exact .inr word
  refine .inl (fragments_eq_nil ?_ proper)
  cases known : facts.bodyLength with
  | some n =>
      have within := due n known
      have empty : total facts [] = n := total_eq known
      rw [← empty, none] at within
      exact List.length_eq_zero_iff.1 (Nat.le_zero.1 within)
  | none =>
      cases framing : facts.framing with
      | chunked => simpa only [framing] using place
      | _ => simp [HeadFacts.bodyLength, framing] at known

/-- **What becomes of a message up to the end of what came of its body.**  Its head is in order
otherwise: it is admitted under some other limits on bodies. -/
theorem Fresh.deliver_message (fresh : Fresh request) {bodies : List Bytes}
    (same : roomier.keepAlive = limits.keepAlive)
    (sound : (Assembly.completeHead roomier facts request).1 = none)
    (word : limits.maxContentLength < Bytes.wordBound) (proper : ∀ bytes ∈ bodies, bytes ≠ [])
    (due : ∀ n ∈ facts.bodyLength, bodies.flatten.length ≤ n) (front : RequestQueue) :
    ∃ refusal next, EmbeddedHttp.deliver (listener limits) (.head facts :: bodies.map .body)
        (front.push request) = (refusal, front.push next) ∧
      (¬ InRange limits facts bodies → refusal = some .overflow) ∧
      (InRange limits facts bodies → ¬ Oversized limits facts bodies.flatten →
        refusal = none ∧ Filling limits facts bodies.flatten next) ∧
      (InRange limits facts bodies → Oversized limits facts bodies.flatten →
        refusal = some (.status .payloadTooLarge) ∧ next.isReady = false) := by
  obtain ⟨headed, stillFresh, admitted, here⟩ := fresh.completeHead same sound
  simp only [EmbeddedHttp.deliver, listener, changeLast_push, here]
  by_cases large : Oversized limits facts []
  · -- the head declares too much
    have notChunked : facts.framing ≠ .chunked := by
      intro framing
      simp [Oversized, framing] at large
    have inRange : InRange limits facts bodies := by
      refine ⟨.inr ?_, fun framing => absurd framing notChunked⟩
      cases framing : facts.framing with
      | none => trivial
      | chunked => exact absurd framing notChunked
      | length n =>
          simp only [Oversized, framing] at large
          exact .inr (.inl large)
    rw [admitFraming_oversized large]
    refine ⟨_, _, rfl, fun not => absurd inRange not,
      fun _ small => absurd ((oversized_iff bodies).2 (.inl large)) small, fun _ _ => ⟨rfl, ?_⟩⟩
    simp [Request.isReady, refuse, stillFresh.incomplete, stillFresh.sound]
  by_cases place : HasPlace limits facts []
  · obtain ⟨next, accepted, filling⟩ := stillFresh.admitFraming admitted large place
    rw [accepted]
    dsimp only
    by_cases placed : HasPlace limits facts bodies.flatten
    · obtain ⟨refusal, last, told, overflows, stores, refuses⟩ :=
        filling.deliver word proper (by simpa using due) (Nat.zero_le _)
          (filling.place due proper placed) front
      simp only [List.nil_append, List.length_nil, Nat.zero_add] at overflows stores refuses
      refine ⟨refusal, last, told, fun not => overflows fun counted =>
        not ⟨placed, fun _ => counted⟩, fun _ small => stores (small_of_due due small),
        fun inRange excess => ?_⟩
      obtain ⟨framing, much⟩ := ((oversized_iff bodies).1 excess).resolve_left large
      exact refuses much (inRange.2 framing)
    · -- the first fragment of a body in chunks finds no place
      obtain ⟨homeless, framing, came⟩ : Bytes.wordBound ≤ limits.maxContentLength + 1 ∧
          facts.framing = .chunked ∧ bodies.flatten ≠ [] := by
        cases framing : facts.framing with
        | chunked =>
            simp only [HasPlace, framing, not_or, Nat.not_lt] at placed
            exact ⟨placed.1, rfl, placed.2⟩
        | _ =>
            refine absurd ?_ placed
            simpa only [HasPlace, framing] using place
      have unknown : facts.bodyLength = none := by rw [HeadFacts.bodyLength, framing]
      have absent : next.body = none := filling.placed.2 ⟨rfl, total_unknown unknown⟩
      cases bodies with
      | nil => exact absurd rfl came
      | cons first others =>
          have nonempty := proper first List.mem_cons_self
          have some_octets : first.isEmpty = false := List.isEmpty_eq_false_iff.2 nonempty
          have overflows := filling.addBody_overflows nonempty (.inr ⟨absent, homeless⟩)
          rcases added : Assembly.addBody limits first next with ⟨refusal, last⟩
          rw [added] at overflows
          obtain rfl : refusal = some .overflow := overflows
          refine ⟨_, last, ?_, fun _ => rfl, fun inRange => absurd inRange.1 placed,
            fun inRange => absurd inRange.1 placed⟩
          simp only [List.map_cons, EmbeddedHttp.deliver, listener, some_octets, Bool.false_eq_true,
            if_false, changeLast_push, added]
  · -- there is no place for what the head declares
    obtain ⟨n, framing⟩ : ∃ n, facts.framing = .length n := by
      cases framing : facts.framing with
      | length n => exact ⟨n, rfl⟩
      | _ => simp [HasPlace, framing] at place
    have never : ¬ HasPlace limits facts bodies.flatten := by
      simpa only [HasPlace, framing] using place
    have overflows : (Assembly.admitFraming limits facts headed).1 = some .overflow :=
      admitFraming_overflows framing place
    rcases outcome : Assembly.admitFraming limits facts headed with ⟨refusal, next⟩
    rw [outcome] at overflows
    obtain rfl : refusal = some .overflow := overflows
    exact ⟨_, next, rfl, fun _ => rfl, fun inRange => absurd inRange.1 never,
      fun inRange => absurd inRange.1 never⟩

/-- What a request that was read to its end holds of its body: exactly what came, if anything
did, spooled if that exceeds the threshold, and as much as was declared. -/
structure Filled (limits : Limits) (facts : HeadFacts) (data : Bytes) (request : Request) :
    Prop where
  sound : request.failure = none
  content : request.body.map Body.content = if data = [] then none else some data
  spooled : request.body.any Body.isSpooled = true ↔ limits.spoolThreshold < data.length
  declared : request.declaredLength = declaredBy facts
  length : ∀ n, facts.framing = .length n → data.length = n

theorem Filling.filled (filling : Filling limits facts data request)
    (all : ∀ n ∈ facts.bodyLength, data.length = n) :
    Filled limits facts data { request with complete := true } := by
  have whole : total facts data = data.length := by
    cases known : facts.bodyLength with
    | none => exact total_unknown known
    | some n => rw [total_eq known, all n known]
  refine ⟨filling.sound, ?_, ?_, filling.declared, fun n framing => ?_⟩
  · have holds := filling.holds
    have placed := filling.placed
    rw [whole] at placed
    show request.body.map Body.content = _
    cases place : request.body with
    | none => simp [(placed.1 place).1]
    | some body =>
        rw [place] at holds
        have some_octets : data ≠ [] := by
          intro empty
          have absent := placed.2 ⟨empty, by rw [empty]; rfl⟩
          rw [place] at absent
          cases absent
        rw [if_neg some_octets, Option.map_some, holds.1]
  · show request.body.any Body.isSpooled = true ↔ _
    rw [filling.spooled, whole, decide_eq_true_iff]
  · exact all n (by rw [HeadFacts.bodyLength, framing]; rfl)

/-- What becomes of a request of whose body `data` came, all of it if the message `ended`: it is
answered with 413 exactly if the body is too large, and never with 500, and read to its end
otherwise if there is one. -/
structure Admission (limits : Limits) (facts : HeadFacts) (data : Bytes) (ended : Prop)
    (request : Request) : Prop where
  refused : request.failure = some .payloadTooLarge ↔ Oversized limits facts data
  stored : request.failure ≠ some .internalServerError
  intact : request.Intact ↔ ¬ Oversized limits facts data ∧ ended
  filled : request.Intact → Filled limits facts data request

variable {ended : Prop}

theorem Admission.of_oversized (large : Oversized limits facts data) (request : Request) :
    Admission limits facts data ended (request.fail .payloadTooLarge) := by
  have blamed : ¬ (request.fail .payloadTooLarge).Intact := fun intact => by cases intact.2
  exact ⟨⟨fun _ => large, fun _ => rfl⟩, by rintro ⟨⟩,
    ⟨fun intact => absurd intact blamed, fun both => absurd large both.1⟩,
    fun intact => absurd intact blamed⟩

/-- Reading stopped before the end, and at a fault if there is an error. -/
theorem Admission.of_halted (small : ¬ Oversized limits facts data) (halted : ¬ ended)
    (failure : request.failure = none ∧ request.complete = false ∨
      request.failure = some .badRequest) :
    Admission limits facts data ended request := by
  have broken : ¬ request.Intact := by
    rintro ⟨complete, sound⟩
    rcases failure with ⟨-, incomplete⟩ | bad
    · rw [complete] at incomplete
      cases incomplete
    · rw [sound] at bad
      cases bad
  refine ⟨⟨fun blamed => ?_, fun large => absurd large small⟩, fun blamed => ?_,
    ⟨fun intact => absurd intact broken, fun both => absurd both.2 halted⟩,
    fun intact => absurd intact broken⟩
  all_goals
    rw [blamed] at failure
    rcases failure with ⟨none, -⟩ | bad
    · cases none
    · cases bad

theorem Filling.admission (filling : Filling limits facts data request)
    (small : ¬ Oversized limits facts data) (complete : ended)
    (all : ∀ n ∈ facts.bodyLength, data.length = n) :
    Admission limits facts data ended { request with complete := true } := by
  have blameless : ∀ status, ({ request with complete := true } : Request).failure ≠ some status :=
    fun status blamed => by
      rw [show ({ request with complete := true } : Request).failure = none from filling.sound]
        at blamed
      cases blamed
  exact ⟨⟨fun blamed => absurd blamed (blameless _), fun large => absurd large small⟩, blameless _,
    ⟨fun _ => ⟨small, complete⟩, fun _ => ⟨rfl, filling.sound⟩⟩, fun _ => filling.filled all⟩

end Assembly

/-! ## Streams -/

/-- A message that is malformed is answered with 400. -/
theorem Parser.step_fault {parser : Parser} {b : UInt8} {rest : Bytes} {fault : ParseError}
    (stops : (parser.step b rest).2 = .error fault) : fault.status = .badRequest := by
  have ofHead : ∀ {scan size}, (headStep scan size b).2 = .error fault →
      fault.status = .badRequest := by
    intro scan size stops
    simp only [headStep, afterHead] at stops
    repeat' split at stops
    all_goals
      cases stops
      try rfl
  cases parser with
  | failed =>
      cases stops
      rfl
  | idle =>
      simp only [step] at stops
      split at stops
      · cases stops
      · exact ofHead stops
  | head scan size => exact ofHead stops
  | body left =>
      simp only [step] at stops
      split at stops <;> cases stops
  | chunked place =>
      cases place with
      | data left => cases stops
      | _ =>
          simp only [step, chunkStep] at stops
          split at stops
          all_goals
            cases stops
            try rfl
  | upgraded => cases stops

theorem Parser.runAll_fault {pieces : List Bytes} {parser : Parser} {fault : ParseError}
    (stops : (runAll pieces parser).2 = .error fault) : fault.status = .badRequest := by
  refine @runAll_invariant (fun _ result => ∀ fault : ParseError, result = .error fault →
    fault.status = .badRequest) [] parser ?_ (by rintro _ ⟨⟩) pieces fault stops
  intro told parser b rest _ fault stops
  rcases stepped : (parser.step b rest).2 with cause | after
  · rw [stepped] at stops
    cases stops
    exact step_fault stepped
  · rw [stepped] at stops
    cases stops

namespace Intake

open Assembly (InRange Oversized Fresh Filling Admission)

/-- What was told of a head up to its end makes a request of which nothing else is known. -/
theorem filed_fresh (limits : Limits) {queue filed : RequestQueue} {pieces : List Bytes}
    {before rest : List Event} {facts : HeadFacts}
    (told : (Parser.runAll pieces .idle).1 = before ++ .head facts :: rest)
    (filing : deliver (Assembly.listener limits) before queue = (none, filed)) :
    ∃ front request, filed = RequestQueue.push front request ∧ Fresh request := by
  obtain ⟨earlier, raw, split, announced⟩ := Parser.runAll_announced told
  obtain ⟨fields, plain, shape⟩ := Parser.announce_split raw
  rcases shape with ⟨cause, same⟩ | ⟨other, same⟩
  · rw [same] at announced
    cases announced
  have ofHead : ∀ e ∈ fields, e.isOfHead = true := by
    intro e member
    refine Parser.announce_ofHead raw e ?_
    rw [same]
    exact List.mem_append_left _ member
  rw [same, ← List.cons_append, ← List.append_assoc] at split
  obtain ⟨rfl, -⟩ := List.append_inj' split rfl
  obtain ⟨between, -, filing⟩ := Parser.deliver_append_ok filing
  obtain ⟨_, begun, filing⟩ := Parser.deliver_cons_ok filing
  cases begun
  obtain ⟨request, made, fresh⟩ := Assembly.fresh_new.deliver limits
    (fun e member => ⟨ofHead e member, plain e member⟩) between
  exact ⟨between, request, (congrArg Prod.snd filing).symm.trans made, fresh⟩

section Messages

variable {limits : Limits} {queue front : RequestQueue} {pieces : List Bytes} {next : Request}
  {facts : HeadFacts} {data : Bytes}

/-- A message that is refused is answered with the status of the refusal. -/
theorem feedAll_refused {status : Status} {events rest : List Event}
    (told : (Parser.runAll pieces .idle).1 = events ++ rest)
    (heard : deliver (Assembly.listener limits) events queue =
      (some (.status status), front.push next)) (unready : next.isReady = false) :
    (feedAll limits ⟨.idle, queue⟩ pieces).result = .error (.refused (.status status)) ∧
      (feedAll limits ⟨.idle, queue⟩ pieces).intake.queue.items[front.items.length]? =
        some (next.fail status) := by
  rw [feedAll_eq, told, Parser.deliver_append, heard]
  refine ⟨rfl, ?_⟩
  dsimp only
  rw [RequestQueue.recordFailure_push, unready]
  exact RequestQueue.getElem?_push_last front _

/-- A body in the middle of which reading ends, perhaps at a fault. -/
theorem feedAll_halted {ended : Prop} (filling : Filling limits facts data next)
    (small : ¬ Oversized limits facts data) (halted : ¬ ended)
    (heard : deliver (Assembly.listener limits) (Parser.runAll pieces .idle).1 queue =
      (none, front.push next)) :
    ∃ request, (feedAll limits ⟨.idle, queue⟩ pieces).intake.queue.items[front.items.length]? =
        some request ∧ Admission limits facts data ended request := by
  have unready : next.isReady = false := by
    simp [Request.isReady, filling.incomplete, filling.sound]
  rw [feedAll_eq, heard]
  dsimp only
  cases outcome : (Parser.runAll pieces .idle).2 with
  | error fault =>
      dsimp only
      rw [RequestQueue.recordFailure_push, unready, Parser.runAll_fault outcome]
      exact ⟨next.fail .badRequest, RequestQueue.getElem?_push_last front _,
        .of_halted small halted (.inr rfl)⟩
  | ok parser =>
      exact ⟨next, RequestQueue.getElem?_push_last front _,
        .of_halted small halted (.inl ⟨filling.sound, filling.incomplete⟩)⟩

/-- A message that is complete; only another one is told of behind it. -/
theorem feedAll_ended {events more : List Event}
    (told : (Parser.runAll pieces .idle).1 = events ++ .complete :: more)
    (follows : more = [] ∨ more.head? = some .begin)
    (heard : deliver (Assembly.listener limits) events queue = (none, front.push next)) :
    (feedAll limits ⟨.idle, queue⟩ pieces).intake.queue.items[front.items.length]? =
      some { next with complete := true } := by
  have ready : ({ next with complete := true } : Request).isReady = true := rfl
  refine (feedAll_finds limits ⟨.idle, queue⟩ pieces ?_).resolve_right fun unready => by
    rw [ready] at unready
    cases unready.1
  rw [told, Parser.deliver_append, heard]
  dsimp only [deliver]
  rw [Assembly.listener_complete]
  dsimp only
  rcases follows with rfl | begins
  · exact RequestQueue.getElem?_push_last front _
  · exact Assembly.deliver_earlier limits (RequestQueue.getElem?_push_last front _) (.inr begins)

end Messages

/-- **Which bodies are admitted, and what is kept of them, does not depend on how they come.**
Any head of a stream that is in order otherwise -- it would be admitted under some other limits
on bodies -- and does not ask to upgrade is answered with 413 exactly when it declares too much,
or when too much came in chunks, and never with 500; a request that is read to its end holds
exactly what came.  This is so unless a sum on the way leaves the 64-bit range, which stops
everything. -/
theorem feedAll_admits (limits : Limits) (word : limits.maxContentLength < Bytes.wordBound)
    {queue filed : RequestQueue} {pieces bodies : List Bytes} {before rest : List Event}
    {facts : HeadFacts}
    (told : (Parser.runAll pieces .idle).1 = before ++ .head facts :: (bodies.map .body ++ rest))
    (all : ∀ event ∈ rest.head?, event.isBody = false) (plain : facts.upgrade = false)
    (filing : deliver (Assembly.listener limits) before queue = (none, filed))
    (sound : ∃ roomier : Limits, roomier.keepAlive = limits.keepAlive ∧
      (Assembly.listener roomier (.head facts) filed).1 = none) :
    let fed := feedAll limits ⟨.idle, queue⟩ pieces
    let data := bodies.flatten
    (¬ InRange limits facts bodies → fed.result = .error (.refused .overflow)) ∧
      (InRange limits facts bodies → ∃ i request, filed.items.length = i + 1 ∧
        fed.intake.queue.items[i]? = some request ∧
        Admission limits facts data (rest.head? = some .complete) request ∧
        (Oversized limits facts data →
          fed.result = .error (.refused (.status .payloadTooLarge)))) := by
  intro fed data
  obtain ⟨front, request, rfl, fresh⟩ := filed_fresh limits told filing
  obtain ⟨roomier, same, sound⟩ := sound
  rw [Assembly.listener, Assembly.changeLast_push] at sound
  obtain ⟨due, ends⟩ := Parser.runAll_behind told plain all
  have proper : ∀ bytes ∈ bodies, bytes ≠ [] := by
    rintro bytes member rfl
    refine Parser.runAll_proper pieces .idle (.body []) ?_ rfl
    rw [told]
    exact List.mem_append_right _ (List.mem_cons_of_mem _
      (List.mem_append_left _ (List.mem_map_of_mem member)))
  obtain ⟨refusal, next, message, overflows, stores, refuses⟩ :=
    fresh.deliver_message same sound word proper due front
  -- everything up to the end of what came of the body
  have heard : deliver (Assembly.listener limits) (before ++ .head facts :: bodies.map .body)
      queue = (refusal, front.push next) := by
    rw [Parser.deliver_append, filing]
    exact message
  rw [← List.cons_append, ← List.append_assoc] at told
  refine ⟨fun outOfRange => ?_, fun inRange => ?_⟩
  · obtain rfl := overflows outOfRange
    show (feedAll limits ⟨.idle, queue⟩ pieces).result = _
    rw [feedAll_eq, told, Parser.deliver_append, heard]
  refine ⟨front.items.length, ?_⟩
  have sized : (front.push request).items.length = front.items.length + 1 := by
    simp [RequestQueue.push]
  by_cases large : Oversized limits facts data
  · obtain ⟨rfl, unready⟩ := refuses inRange large
    obtain ⟨result, found⟩ := feedAll_refused told heard unready
    exact ⟨_, sized, found, .of_oversized large next, fun _ => result⟩
  obtain ⟨rfl, filling⟩ := stores inRange large
  rcases ends with rfl | ⟨lengths, tail⟩
  · rw [List.append_nil] at told
    rw [← told] at heard
    have halted : ¬ ([] : List Event).head? = some .complete := by rintro ⟨⟩
    obtain ⟨later, found, admission⟩ := feedAll_halted filling large halted heard
    exact ⟨later, sized, found, admission, fun excess => absurd excess large⟩
  · obtain ⟨more, rfl, follows⟩ : ∃ more, rest = .complete :: more ∧
        (more = [] ∨ more.head? = some .begin) := by
      rcases tail with rfl | ⟨more, rfl⟩
      · exact ⟨[], rfl, .inl rfl⟩
      · exact ⟨_, rfl, .inr rfl⟩
    exact ⟨_, sized, feedAll_ended told follows heard,
      filling.admission large rfl lengths, fun excess => absurd excess large⟩

/-- Five octets in one chunk, cut in the middle: they pass the threshold on the way. -/
theorem feedAll_admits_chunk :
    let limits : Limits := ⟨8, 4, true⟩
    let pieces := Bytes.cutEvery 26 <| Bytes.ofAscii
      "POST / HTTP/1.1\r\nTransfer-Encoding: chunked\r\n\r\n5\r\nhello\r\n0\r\n\r\n"
    let facts : HeadFacts := ⟨Bytes.ofAscii "POST", .http11, .chunked, false⟩
    let before : List Event := [.begin, .target (Bytes.ofAscii "/"),
      .fieldName (Bytes.ofAscii "Transfer-Encoding"), .fieldValue (Bytes.ofAscii "chunked")]
    let bodies := [Bytes.ofAscii "he", Bytes.ofAscii "llo"]
    let filed := (deliver (Assembly.listener limits) before .empty).2
    (Parser.runAll pieces .idle).1 =
        before ++ .head facts :: (bodies.map .body ++ [.complete]) ∧
      deliver (Assembly.listener limits) before .empty = (none, filed) ∧
      (∃ roomier : Limits, roomier.keepAlive = limits.keepAlive ∧
        (Assembly.listener roomier (.head facts) filed).1 = none) ∧
      InRange limits facts bodies ∧ ¬ Oversized limits facts (Bytes.ofAscii "hello") ∧
      ∃ i request, filed.items.length = i + 1 ∧
        (feedAll limits ⟨.idle, .empty⟩ pieces).intake.queue.items[i]? = some request ∧
        Admission limits facts (Bytes.ofAscii "hello") True request := by
  intro limits pieces facts before bodies filed
  have told : (Parser.runAll pieces .idle).1 =
      before ++ .head facts :: (bodies.map .body ++ [.complete]) := by decide +kernel
  have filing : deliver (Assembly.listener limits) before .empty = (none, filed) := by
    decide +kernel
  have sound : (Assembly.listener limits (.head facts) filed).1 = none := by decide +kernel
  have inRange : InRange limits facts bodies := by decide +kernel
  obtain ⟨i, request, sized, found, admission, -⟩ :=
    (feedAll_admits limits (by decide) told (by rintro _ ⟨⟩; rfl) rfl filing
      ⟨limits, rfl, sound⟩).2 inRange
  refine ⟨told, filing, ⟨limits, rfl, sound⟩, inRange, by decide +kernel, i, request, sized,
    found, admission.refused, admission.stored, ?_, admission.filled⟩
  exact admission.intact.trans ⟨fun both => ⟨both.1, trivial⟩, fun both => ⟨both.1, rfl⟩⟩

end Intake

end EmbeddedHttp
