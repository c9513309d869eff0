/-
# EmbeddedHttp.Proofs.Request.Persistence -- which requests keep their connection

Several fields of one name stand for one list.  A request is built with the first Connection
field alone in view, so a token in a later one is not seen.  `Intake.feedAll_keepAlive` says of
every head that is accepted, wherever it stands in a stream and however the stream is cut, what
its request says of the connection, and that this is what all its Connection fields say
together unless the token that decides stands in a later one only.
-/
import EmbeddedHttp.Proofs.Message.EventOrder
import EmbeddedHttp.Proofs.Request.Asking
import EmbeddedHttp.Proofs.Request.Building
import EmbeddedHttp.Proofs.Request.Heads
import EmbeddedHttp.Proofs.Text.Lossy

namespace EmbeddedHttp

set_option autoImplicit false

namespace Assembly

open Head (valuesOf joinedValues)

variable {limits : Limits} {facts : HeadFacts}

/-! ## What Connection fields say -/

/-- The token that decides about a connection. -/
def decidingToken : Version → Bytes
  | .http11 => Bytes.ofAscii "close"
  | .http10 => Bytes.ofAscii "keep-alive"

/-- Does one of the values name the token that decides? -/
def isDecided (version : Version) (values : List Bytes) : Bool :=
  values.any fun value => Bytes.hasToken value (decidingToken version)

/-- What the values of Connection fields come to: the connection is kept by HTTP/1.1 unless one
of them tells to close it, and by HTTP/1.0 if one of them tells to keep it, but neither for an
upgrade nor where no connection is kept. -/
def negotiated (limits : Limits) (facts : HeadFacts) (values : List Bytes) : Bool :=
  limits.keepAlive && !facts.upgrade &&
    match facts.version with
    | .http11 => !isDecided .http11 values
    | .http10 => isDecided .http10 values

theorem decidingToken_ascii (version : Version) : ∀ b ∈ decidingToken version, b.toNat < 128 := by
  cases version <;> decide +kernel

/-- Values in one field say the same as in several. -/
theorem negotiated_joined (values : List Bytes) :
    negotiated limits facts [[44].intercalate values] = negotiated limits facts values := by
  have same : ∀ version, isDecided version [[44].intercalate values] =
      isDecided version values := by
    intro version
    simp only [isDecided, Bytes.hasToken, List.any_cons, List.any_nil, Bool.or_false,
      Bytes.elements_join, List.any_flatMap]
  simp only [negotiated, same]

/-- Two lists of values say the same unless the decision is open and they differ in it. -/
theorem negotiated_eq_iff {some all : List Bytes} :
    negotiated limits facts some = negotiated limits facts all ↔
      ¬ (limits.keepAlive = true ∧ facts.upgrade = false ∧
        isDecided facts.version some ≠ isDecided facts.version all) := by
  have possible : ∀ keeps upgrade one other : Bool,
      ((keeps && !upgrade && one) = (keeps && !upgrade && other) ↔
        ¬ (keeps = true ∧ upgrade = false ∧ one ≠ other)) ∧
      ((keeps && !upgrade && !one) = (keeps && !upgrade && !other) ↔
        ¬ (keeps = true ∧ upgrade = false ∧ one ≠ other)) := by decide
  rw [negotiated, negotiated]
  cases facts.version with
  | http11 => exact (possible ..).2
  | http10 => exact (possible ..).1

/-- The first field of an ASCII name, as it is found among the stored texts. -/
theorem headerValue?_texts (fields : List (Bytes × Bytes)) {name : String}
    (ascii : Text.isAscii name = true) :
    headerValue? (texts fields) name =
      ((valuesOf name fields).head?).map Utf8.decodeLossy := by
  rw [headerValue?]
  induction fields with
  | nil => rfl
  | cons field rest ih =>
      have named := Utf8.sameIgnoringCase_decodeLossy field.1 ascii
      rw [texts, List.map_cons, List.find?_cons]
      simp only [named]
      cases same : Bytes.sameIgnoringCase field.1 (Bytes.ofAscii name) with
      | true =>
          rw [Head.valuesOf_cons_same same]
          rfl
      | false =>
          rw [Head.valuesOf_cons_other same]
          exact ih

/-- **A request is kept by what the first Connection field says.** -/
theorem keepsAlive_texts {request : Request} {fields : List (Bytes × Bytes)}
    (headers : request.headers = texts fields) :
    keepsAlive limits facts request =
      negotiated limits facts ((valuesOf "connection" fields).take 1) := by
  have token : ∀ version, Bytes.hasToken
      (Bytes.ofText ((request.header? "connection").getD "")) (decidingToken version) =
        isDecided version ((valuesOf "connection" fields).take 1) := by
    intro version
    rw [Request.header?, headers, headerValue?_texts fields (by decide)]
    cases valuesOf "connection" fields with
    | nil => rfl
    | cons value rest =>
        rw [List.head?_cons, Option.map_some, Option.getD_some,
          Utf8.hasToken_decodeLossy value (decidingToken_ascii version)]
        simp [isDecided]
  rw [keepsAlive, negotiated]
  cases facts.version with
  | http11 => exact congrArg (fun named => _ && !named) (token .http11)
  | http10 => exact congrArg (_ && ·) (token .http10)

/-! ## A head that is accepted -/

/-- The fields told so far, as the request has them whose head is read: the last one is still
in its draft. -/
inductive Filed : List (Bytes × Bytes) → Request → Prop where
  | bare {request : Request} (headers : request.headers = [])
      (name : request.draft.name.data = []) (value : request.draft.value.data = [])
      (unbegun : request.draft.last ≠ .value) : Filed [] request
  | last {fields : List (Bytes × Bytes)} {name value : Bytes} {request : Request}
      (headers : request.headers = texts fields) (named : request.draft.name.data = name)
      (valued : request.draft.value.data = value) (begun : request.draft.last = .value) :
      Filed (fields ++ [(name, value)]) request

variable {fields : List (Bytes × Bytes)} {request next : Request}

theorem Filed.stored (filed : Filed fields request) (accepted : storeField request = (none, next)) :
    next.headers = texts fields ∧ next.draft.name.data = [] ∧ next.draft.value.data = [] := by
  cases filed with
  | bare headers name value unbegun =>
      have same : storeField request = accept request := by
        rw [storeField]
        cases last : request.draft.last with
        | value => exact absurd last unbegun
        | _ => rfl
      rw [same] at accepted
      cases accepted
      exact ⟨headers, name, value⟩
  | last headers named valued begun =>
      simp only [storeField, begun] at accepted
      split at accepted
      · cases accepted
      · cases accepted
        refine ⟨?_, rfl, rfl⟩
        simp only [headers, named, valued, texts, List.map_append, List.map_cons, List.map_nil]

/-- What is written without excess goes behind what is there. -/
theorem unlessExcess_ok {excess : Option Nat}
    (accepted : unlessExcess excess request = (none, next)) : excess = none ∧ next = request := by
  cases excess with
  | none =>
      cases accepted
      exact ⟨rfl, rfl⟩
  | some _ => cases accepted

/-- A field that is accepted is filed. -/
theorem Filed.field (filed : Filed fields request) {name value : Bytes} {middle : Request}
    (named : addName name request = (none, middle)) (valued : addValue value middle = (none, next)) :
    Filed (fields ++ [(name, value)]) next := by
  obtain ⟨stored, storing, naming⟩ := andThen_ok named
  obtain ⟨headers, noName, noValue⟩ := filed.stored storing
  obtain ⟨whole, rfl⟩ := unlessExcess_ok naming
  rw [addValue, if_neg (by simp)] at valued
  obtain ⟨all, rfl⟩ := unlessExcess_ok valued
  have name' := Buffer.write_whole whole
  have value' := Buffer.write_whole all
  rw [noName, List.nil_append] at name'
  simp only [noValue, List.nil_append] at value'
  exact .last headers name' value' rfl

/-- The fields of a head are filed one after the other, if all of them are accepted. -/
theorem Filed.append {events : List (Bytes × Bytes)} (filed : Filed fields request)
    {front after : RequestQueue}
    (accepted : deliver (listener limits) (Head.fieldEvents events) (front.push request) =
      (none, after)) :
    ∃ next, after = front.push next ∧ Filed (fields ++ events) next := by
  induction events generalizing fields request with
  | nil =>
      cases accepted
      exact ⟨request, rfl, by rwa [List.append_nil]⟩
  | cons field rest ih =>
      rw [Head.fieldEvents_cons] at accepted
      obtain ⟨middle, naming, accepted⟩ := Parser.deliver_cons_ok accepted
      rw [listener, changeLast_push] at naming
      rcases named : addName field.1 request with ⟨refusal, between⟩
      rw [named] at naming
      cases naming
      obtain ⟨middle, valuing, accepted⟩ := Parser.deliver_cons_ok accepted
      rw [listener, changeLast_push] at valuing
      rcases valued : addValue field.2 between with ⟨refusal, next⟩
      rw [valued] at valuing
      cases valuing
      obtain ⟨last, same, done⟩ := ih (filed.field named valued) accepted
      exact ⟨last, same, by rwa [List.append_assoc] at done⟩

theorem noteExpectation_keepAlive
    (accepted : noteExpectation facts request = (none, next)) :
    next.keepAlive = request.keepAlive := by
  simp only [noteExpectation] at accepted
  repeat' split at accepted
  all_goals
    cases accepted
    try rfl

theorem admitFraming_keepAlive (accepted : admitFraming limits facts request = (none, next)) :
    next.keepAlive = request.keepAlive := by
  simp only [admitFraming, openBody] at accepted
  repeat' split at accepted
  all_goals
    cases accepted
    try rfl

/-- A complete head that is accepted says of the connection what its fields say. -/
theorem Filed.completeHead (filed : Filed fields request)
    (accepted : Assembly.completeHead limits facts request = (none, next)) :
    next.keepAlive = negotiated limits facts ((valuesOf "connection" fields).take 1) := by
  obtain ⟨stored, storing, accepted⟩ := andThen_ok accepted
  obtain ⟨described, describing, accepted⟩ := andThen_ok accepted
  obtain ⟨checked, checking, accepted⟩ := andThen_ok accepted
  obtain ⟨noted, noting, admitting⟩ := andThen_ok accepted
  have told : described.keepAlive = keepsAlive limits facts stored := by
    rw [describe] at describing
    split at describing
    · cases describing
    · cases describing
      rfl
  obtain rfl := checkHandshake_ok checking
  rw [admitFraming_keepAlive admitting, noteExpectation_keepAlive noting, told,
    keepsAlive_texts (filed.stored storing).1]

/-- A head that is accepted is filed field by field, and then completed. -/
theorem deliver_head_filed {raw : Head.Raw} (announced : raw.announce.2 = .ok facts)
    {queue after : RequestQueue}
    (accepted : deliver (listener limits) (.begin :: raw.announce.1) queue = (none, after)) :
    ∃ request next,
      deliver (listener limits) (.target raw.target :: Head.fieldEvents raw.fields)
          (queue.push Request.new) = (none, queue.push request) ∧
        Filed raw.fields request ∧ completeHead limits facts request = (none, next) ∧
        after = queue.push next := by
  rw [Parser.announce_ok announced, ← List.cons_append] at accepted
  obtain ⟨_, begun, accepted⟩ := Parser.deliver_cons_ok accepted
  cases begun
  obtain ⟨_, gathered, accepted⟩ := Parser.deliver_append_ok accepted
  obtain ⟨_, targeted, filing⟩ := Parser.deliver_cons_ok gathered
  rw [listener, changeLast_push] at targeted
  rcases written : addTarget raw.target Request.new with ⟨refusal, started⟩
  rw [written] at targeted
  cases targeted
  obtain ⟨-, rfl⟩ := unlessExcess_ok written
  obtain ⟨request, rfl, isFiled⟩ :=
    (Filed.bare rfl rfl rfl (show LastPart.none ≠ .value by decide)).append filing
  obtain ⟨_, completing, accepted⟩ := Parser.deliver_cons_ok accepted
  rw [listener, changeLast_push] at completing
  rcases completed : completeHead limits facts request with ⟨refusal, next⟩
  rw [completed] at completing
  cases completing
  cases accepted
  exact ⟨request, next, gathered, isFiled, completed, rfl⟩

/-- **A head that is accepted makes a request that is kept as the first Connection field
says.** -/
theorem deliver_head_keepAlive {raw : Head.Raw} (announced : raw.announce.2 = .ok facts)
    {queue after : RequestQueue}
    (accepted : deliver (listener limits) (.begin :: raw.announce.1) queue = (none, after)) :
    ∃ request, after = queue.push request ∧
      request.keepAlive =
        negotiated limits facts ((valuesOf "connection" raw.fields).take 1) := by
  obtain ⟨request, next, -, filed, completed, rfl⟩ := deliver_head_filed announced accepted
  exact ⟨next, rfl, filed.completeHead completed⟩

/-! ## What comes behind -/

/-- What comes behind a head leaves alone what it said of the connection. -/
theorem listener_keepAlive (limits : Limits) {event : Event} (behind : event.isBehindHead = true)
    (front : RequestQueue) (last : Request) :
    ∃ refusal next, listener limits event (front.push last) = (refusal, front.push next) ∧
      next.keepAlive = last.keepAlive := by
  cases event with
  | complete => exact ⟨_, _, listener_complete limits front last, rfl⟩
  | body bytes =>
      cases empty : bytes.isEmpty with
      | true => exact ⟨none, last, by simp [listener, empty], rfl⟩
      | false =>
          exact ⟨(addBody limits bytes last).1, (addBody limits bytes last).2,
            by simp [listener, empty, changeLast_push],
            addBody_keeps limits empty last (·.keepAlive) fun _ _ => rfl⟩
  | _ => cases behind

/-- **What a head said of its connection stays**, whatever is told behind it in turn. -/
theorem deliver_keepAlive (limits : Limits) {due : Event.Due} {events : List Event}
    (allowed : due.AllowsAll events) (headRead : due ≠ .head) (front : RequestQueue)
    (request : Request) :
    ∃ later, (deliver (listener limits) events (front.push request)).2.items[
        front.items.length]? = some later ∧ later.keepAlive = request.keepAlive := by
  induction events generalizing due request with
  | nil => exact ⟨request, RequestQueue.getElem?_push_last front request, rfl⟩
  | cons event rest ih =>
      obtain ⟨here, further⟩ := allowed
      rcases here.behindHead headRead with rfl | ⟨behind, still⟩
      · -- another message begins, and this one is left alone
        exact ⟨request, deliver_earlier limits (RequestQueue.getElem?_push_last front request)
          (.inr rfl), rfl⟩
      · obtain ⟨refusal, next, heard, same⟩ := listener_keepAlive limits behind front request
        rw [deliver, heard]
        cases refusal with
        | some refusal => exact ⟨next, RequestQueue.getElem?_push_last front next, same⟩
        | none =>
            obtain ⟨later, found, kept⟩ := ih further still next
            exact ⟨later, found, kept.trans same⟩

end Assembly

/-! ## Streams -/

namespace Intake

open Assembly (negotiated isDecided)
open Head (valuesOf joinedValues)

/-- **The first Connection field of a head decides whether the connection is kept.**  This is so
for every head of a stream that is accepted up to its end, whatever comes behind it and however
the stream is cut.  It is what all Connection fields say, in one field or in several, unless the
decision is open and the token that makes it stands in a later field only. -/
theorem feedAll_keepAlive (limits : Limits) (queue : RequestQueue) {pieces : List Bytes}
    {before rest : List Event} {facts : HeadFacts}
    (told : (Parser.runAll pieces .idle).1 = before ++ .head facts :: rest)
    (accepted : (deliver (Assembly.listener limits) (before ++ [.head facts]) queue).1 = none) :
    ∃ earlier, ∃ raw : Head.Raw, before ++ [.head facts] = earlier ++ .begin :: raw.announce.1 ∧
      raw.announce.2 = .ok facts ∧
      let values := valuesOf "connection" raw.fields
      ∃ request, (feedAll limits ⟨.idle, queue⟩ pieces).intake.queue.items[
          queue.items.length + earlier.count .begin]? = some request ∧
        request.keepAlive = negotiated limits facts (values.take 1) ∧
        (request.keepAlive = negotiated limits facts values ↔
          ¬ (limits.keepAlive = true ∧ facts.upgrade = false ∧
            isDecided facts.version (values.take 1) ≠ isDecided facts.version values)) ∧
        negotiated limits facts [joinedValues "connection" raw.fields] =
          negotiated limits facts values := by
  obtain ⟨earlier, raw, split, announced⟩ := Parser.runAll_announced told
  refine ⟨earlier, raw, split, announced, ?_⟩
  have whole : (Parser.runAll pieces .idle).1 = earlier ++ .begin :: raw.announce.1 ++ rest := by
    rw [told, ← split, List.append_assoc, List.singleton_append]
  rw [split] at accepted
  -- the requests in front, and the one whose head it is
  rcases heard : deliver (Assembly.listener limits) (earlier ++ .begin :: raw.announce.1) queue
    with ⟨refusal, after⟩
  rw [heard] at accepted
  obtain rfl : refusal = none := accepted
  obtain ⟨between, sofar, front⟩ := Parser.deliver_append_ok heard
  obtain ⟨request, rfl, first⟩ := Assembly.deliver_head_keepAlive announced front
  have length := Assembly.deliver_length sofar
  have allowed := Parser.runAll_inTurn pieces
  rw [told, Event.Due.allowsAll_append, Event.Due.AllowsAll, Event.Due.after] at allowed
  obtain ⟨later, found, same⟩ :=
    Assembly.deliver_keepAlive limits allowed.2.2 facts.due_ne_head between request
  have there : (deliver (Assembly.listener limits) (Parser.runAll pieces .idle).1
      queue).2.items[between.items.length]? = some later := by
    rw [whole, Parser.deliver_append, heard]
    exact found
  obtain ⟨last, foundLast, still⟩ : ∃ last,
      (feedAll limits ⟨.idle, queue⟩ pieces).intake.queue.items[between.items.length]? =
        some last ∧ last.keepAlive = later.keepAlive := by
    rcases feedAll_finds limits ⟨.idle, queue⟩ pieces there with stays | ⟨-, status, failed⟩
    · exact ⟨later, stays, rfl⟩
    · exact ⟨later.fail status, failed, rfl⟩
  have kept := (still.trans same).trans first
  refine ⟨last, by rw [← length]; exact foundLast, kept, ?_, Assembly.negotiated_joined _⟩
  rw [kept]
  exact Assembly.negotiated_eq_iff

/-- Two Connection fields, and only the second one tells to close: the connection is kept. -/
theorem feedAll_keepAlive_later :
    let limits : Limits := ⟨1024, 1024, true⟩
    let pieces := Bytes.cutEvery 7 <| Bytes.ofAscii
      "GET / HTTP/1.1\r\nConnection: keep-alive\r\nConnection: close\r\n\r\n"
    let facts : HeadFacts := ⟨Bytes.ofAscii "GET", .http11, .none, false⟩
    let fields := [(Bytes.ofAscii "Connection", Bytes.ofAscii "keep-alive"),
      (Bytes.ofAscii "Connection", Bytes.ofAscii "close")]
    let before := .begin :: .target (Bytes.ofAscii "/") :: Head.fieldEvents fields
    ((Parser.runAll pieces .idle).1 = before ++ .head facts :: [.complete] ∧
      (deliver (Assembly.listener limits) (before ++ [.head facts]) .empty).1 = none) ∧
    (∃ earlier, ∃ raw : Head.Raw,
      before ++ [.head facts] = earlier ++ .begin :: raw.announce.1 ∧
      raw.announce.2 = .ok facts ∧
      ∃ request, (feedAll limits ⟨.idle, .empty⟩ pieces).intake.queue.items[
          0 + earlier.count .begin]? = some request ∧
        request.keepAlive = negotiated limits facts ((valuesOf "connection" raw.fields).take 1)) ∧
    negotiated limits facts ((valuesOf "connection" fields).take 1) = true ∧
      negotiated limits facts (valuesOf "connection" fields) = false := by
  intro limits pieces facts fields before
  have told : (Parser.runAll pieces .idle).1 = before ++ .head facts :: [.complete] := by
    decide +kernel
  have accepted : (deliver (Assembly.listener limits) (before ++ [.head facts]) .empty).1 =
      none := by decide +kernel
  obtain ⟨earlier, raw, split, announced, request, found, kept, -⟩ :=
    feedAll_keepAlive limits .empty told accepted
  exact ⟨⟨told, accepted⟩, ⟨earlier, raw, split, announced, request, found, kept⟩,
    by decide, by decide⟩

end Intake

end EmbeddedHttp
