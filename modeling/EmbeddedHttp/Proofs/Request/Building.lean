/-
# EmbeddedHttp.Proofs.Request.Building -- a written request is built as it was written

The events of one written request are told to the listener that builds requests.
Behind each field the request at hand holds the fields before it as texts and the last
one in its buffers (`Gathered`); a complete head finds nothing to refuse
(`completeHead_eq`), and fragments of body add up to the content (`deliver_bodies`).
The one thing that can go wrong is that there is no place to keep the body
(`deliver_request`).
-/
import EmbeddedHttp.Proofs.Message.Cuts
import EmbeddedHttp.Proofs.Message.BodyReading
import EmbeddedHttp.Proofs.Request.Queue
import EmbeddedHttp.Proofs.Request.Reading

namespace EmbeddedHttp

set_option autoImplicit false

namespace Assembly

variable {limits : Limits}

@[simp] theorem andThen_accept (request : Request) (next : Request → Change) :
    andThen (accept request) next = next request := rfl

/-! ## Fields -/

/-- Fields as the texts that are stored. -/
def texts (fields : List (Bytes × Bytes)) : List (String × String) :=
  fields.map fun field => (Utf8.decodeLossy field.1, Utf8.decodeLossy field.2)

@[simp] theorem texts_length (fields : List (Bytes × Bytes)) :
    (texts fields).length = fields.length := by
  simp [texts]

/-- A request of which only a target and some stored fields are known. -/
structure Stored (target : Bytes) (fields : List (Bytes × Bytes)) (request : Request) : Prop where
  headers : request.headers = texts fields
  target : request.draft.target.data = target
  name : request.draft.name.data = []
  value : request.draft.value.data = []
  name_limit : request.draft.name.limit = Draft.fieldLimit
  value_limit : request.draft.value.limit = Draft.fieldLimit
  body : request.body = none
  failure : request.failure = none
  length : request.declaredLength = none

/-- A request behind some fields, the last of which is stored with the next event. -/
def Gathered (target : Bytes) (fields : List (Bytes × Bytes)) (request : Request) : Prop :=
  ∃ next, storeField request = accept next ∧ Stored target fields next

/-- A fragment of the target that keeps within its limit. -/
theorem gathered_target {target : Bytes} (fits : target.length ≤ Draft.targetLimit) :
    ∃ next, addTarget target Request.new = accept next ∧ Gathered target [] next := by
  obtain ⟨capacity, written⟩ := Buffer.write_fits Request.new.draft.target target
    (Nat.le_trans (Nat.le_of_eq (Nat.zero_add _)) fits)
  refine ⟨{ Request.new with draft := { Draft.empty with
    target := ⟨target, capacity, Draft.targetLimit⟩ } }, ?_, ?_⟩
  · rw [addTarget, written]
    exact if_neg (by simp)
  · exact ⟨_, rfl, ⟨rfl, rfl, rfl, rfl, rfl, rfl, rfl, rfl, rfl⟩⟩

/-- One field: the one before it is stored, and it is gathered in turn. -/
theorem gathered_field (limits : Limits) {target name value : Bytes} {fields : List (Bytes × Bytes)}
    {request : Request} (gathered : Gathered target fields request)
    (room : fields.length < Request.maxFields) (nameFits : name.length ≤ Draft.fieldLimit)
    (valueFits : value.length ≤ Draft.fieldLimit) (queue : RequestQueue) :
    ∃ next, deliver (listener limits) [.fieldName name, .fieldValue value] (queue.push request) =
        (none, queue.push next) ∧ Gathered target (fields ++ [(name, value)]) next := by
  obtain ⟨ready, stored, facts⟩ := gathered
  obtain ⟨nameRoom, nameWritten⟩ := Buffer.write_fits ready.draft.name name
    (by simpa [Buffer.size, facts.name, facts.name_limit] using nameFits)
  obtain ⟨valueRoom, valueWritten⟩ := Buffer.write_fits ready.draft.value value
    (by simpa [Buffer.size, facts.value, facts.value_limit] using valueFits)
  -- a name stores the field before it, so this field is left in the draft
  have named : addName name request = accept { ready with draft := { ready.draft with
      name := ⟨name, nameRoom, Draft.fieldLimit⟩, last := .name } } := by
    rw [addName, stored, andThen_accept, nameWritten, facts.name, facts.name_limit]
    exact if_neg (by simp)
  have valued : addValue value { ready with draft := { ready.draft with
        name := ⟨name, nameRoom, Draft.fieldLimit⟩, last := .name } } =
      accept { ready with draft := { ready.draft with
        name := ⟨name, nameRoom, Draft.fieldLimit⟩
        value := ⟨value, valueRoom, Draft.fieldLimit⟩, last := .value } } := by
    rw [addValue, if_neg (by simp), valueWritten, facts.value, facts.value_limit]
    exact if_neg (by simp)
  refine ⟨{ ready with draft := { ready.draft with
    name := ⟨name, nameRoom, Draft.fieldLimit⟩
    value := ⟨value, valueRoom, Draft.fieldLimit⟩, last := .value } }, ?_, ?_⟩
  · simp only [deliver, listener, changeLast_push, named, accept, valued]
  · have below : ¬ Request.maxFields ≤ ready.headers.length := by
      rw [facts.headers, texts_length]
      omega
    refine ⟨{ ready with
      headers := ready.headers ++ [(Utf8.decodeLossy name, Utf8.decodeLossy value)]
      draft := { ready.draft with
        name := ⟨[], nameRoom, Draft.fieldLimit⟩
        value := ⟨[], valueRoom, Draft.fieldLimit⟩, last := .value } }, ?_, ?_⟩
    · simp only [storeField]
      exact if_neg below
    · exact ⟨by simp [texts, facts.headers], facts.target, rfl, rfl, rfl, rfl, facts.body,
        facts.failure, facts.length⟩

/-- **Fields within the limits are gathered one after the other.** -/
theorem deliver_fields (limits : Limits) {target : Bytes} {done fields : List (Bytes × Bytes)}
    {request : Request}
    (gathered : Gathered target done request)
    (room : done.length + fields.length ≤ Request.maxFields)
    (fit : ∀ field ∈ fields,
      field.1.length ≤ Draft.fieldLimit ∧ field.2.length ≤ Draft.fieldLimit)
    (queue : RequestQueue) :
    ∃ next, deliver (listener limits) (Head.fieldEvents fields) (queue.push request) =
        (none, queue.push next) ∧ Gathered target (done ++ fields) next := by
  induction fields generalizing done request with
  | nil => exact ⟨request, rfl, by simpa using gathered⟩
  | cons field rest ih =>
      simp only [List.length_cons] at room
      obtain ⟨nameFits, valueFits⟩ := fit field List.mem_cons_self
      obtain ⟨middle, told, here⟩ :=
        gathered_field limits gathered (by omega) nameFits valueFits queue
      obtain ⟨next, further, there⟩ := ih here
        (by simp only [List.length_append, List.length_singleton]; omega)
        (fun f member => fit f (List.mem_cons_of_mem _ member))
      refine ⟨next, ?_, by simpa using there⟩
      have split : Head.fieldEvents (field :: rest) =
          [.fieldName field.1, .fieldValue field.2] ++ Head.fieldEvents rest := rfl
      rw [split, Parser.deliver_append, told]
      exact further

/-! ## Complete heads -/

theorem ofBytes?_name (method : Method) :
    Method.ofBytes? (Bytes.ofAscii method.name) = some method := by
  cases method <;> decide

theorem texts_rawFields (request : WrittenRequest) :
    texts request.rawFields = request.headers := by
  simp [texts, WrittenRequest.rawFields, WrittenRequest.headers, WrittenField.raw,
    Utf8.decodeLossy_ofText]

/-- What has been said about the request up to the end of its head, and what its body
holds so far. -/
structure Headed (limits : Limits) (written : WrittenRequest) (data : Bytes)
    (request : Request) : Prop where
  method : request.method = written.method
  target : request.target = written.target
  version : request.version = written.version
  headers : request.headers = written.headers
  failure : request.failure = none
  body : match request.body with
    | none => data = []
    | some body => body.content = data ∧ body.HasRoom limits.maxContentLength

/-- Up to the framing, a complete head finds a well-formed request in order. -/
theorem completeHead_framing {written : WrittenRequest} (legal : written.Legal limits)
    {request : Request}
    (gathered : Gathered (Bytes.ofText written.target) written.rawFields request) :
    ∃ described : Request, completeHead limits written.facts request =
        admitFraming limits written.facts described ∧
      Headed limits written [] described ∧ described.body = none := by
  obtain ⟨ready, stored, facts⟩ := gathered
  have headers : ready.headers = written.headers := by rw [facts.headers, texts_rawFields]
  rw [completeHead, stored, andThen_accept, describe]
  simp only [WrittenRequest.facts, ofBytes?_name, andThen_accept]
  rw [checkHandshake]
  simp only [Bool.false_and, Bool.false_eq_true, if_false, andThen_accept, noteExpectation]
  split
  · rename_i expectation http11 expected
    have known : Text.sameIgnoringCase expectation "100-continue" = true :=
      legal.expectation http11 expectation (by rw [← headers]; exact expected)
    rw [if_pos known, andThen_accept]
    refine ⟨_, rfl, ⟨rfl, ?_, rfl, headers, facts.failure, ?_⟩, facts.body⟩
    · simp only [facts.target, Utf8.decodeLossy_ofText]
    · simp only [facts.body]
  · rw [andThen_accept]
    refine ⟨_, rfl, ⟨rfl, ?_, rfl, headers, facts.failure, ?_⟩, facts.body⟩
    · simp only [facts.target, Utf8.decodeLossy_ofText]
    · simp only [facts.body]

/-- A declared body that is not empty gets its place when the head is complete. -/
theorem admitFraming_declared {written : WrittenRequest} (legal : written.Legal limits)
    {data : Bytes} (declared : written.payload = .declared data) (nonempty : data ≠ [])
    (request : Request) :
    admitFraming limits written.facts request =
      openBody limits (some data.length) { request with declaredLength := some data.length } := by
  have size := legal.body_size
  rw [declared] at size
  have within : ¬ limits.maxContentLength < data.length := Nat.not_lt.2 size
  have positive : ¬ data.length = 0 := by
    rw [List.length_eq_zero_iff]
    exact nonempty
  simp only [admitFraming, WrittenRequest.facts, declared, WrittenBody.framing, within, if_false,
    positive]

/-- A declared body has a place exactly when the request is storable. -/
theorem storable_declared {written : WrittenRequest} {data : Bytes}
    (declared : written.payload = .declared data) (nonempty : data ≠ []) :
    written.Storable limits ↔
      ¬ Body.forLength? (some data.length) limits.spoolThreshold limits.maxContentLength = none := by
  rw [Body.forLength?_eq_none, WrittenRequest.Storable, declared]
  simp only [WrittenBody.data, nonempty, false_or, WrittenBody.declared.injEq, exists_eq_left',
    Option.some.injEq, forall_eq']
  omega

/-- A complete head is accepted when there is a place for what it declares; a declared
body that is not empty has its place then, and nothing else has. -/
theorem completeHead_accepts {written : WrittenRequest} (legal : written.Legal limits)
    {request : Request}
    (gathered : Gathered (Bytes.ofText written.target) written.rawFields request)
    (placed : ∀ data, written.payload = .declared data → written.Storable limits) :
    ∃ next, completeHead limits written.facts request = accept next ∧
      Headed limits written [] next ∧
      (next.body = none ↔ ∀ data, written.payload = .declared data → data = []) := by
  obtain ⟨described, same, headed, noBody⟩ := completeHead_framing legal gathered
  rw [same]
  cases payload : written.payload with
  | none =>
      have given := legal.length_given payload
      refine ⟨described, ?_, headed, by simp [noBody]⟩
      simp [admitFraming, WrittenRequest.facts, payload, WrittenBody.framing, headed.method, given]
  | chunked chunks last trailers =>
      refine ⟨described, ?_, headed, by simp [noBody]⟩
      simp [admitFraming, WrittenRequest.facts, payload, WrittenBody.framing]
  | declared data =>
      have storable := placed data payload
      by_cases empty : data = []
      · subst empty
        refine ⟨{ described with declaredLength := some 0 }, ?_,
          ⟨headed.method, headed.target, headed.version, headed.headers, headed.failure,
            headed.body⟩, by simp [noBody]⟩
        simp [admitFraming, WrittenRequest.facts, payload, WrittenBody.framing]
      · rw [storable_declared payload empty] at storable
        obtain ⟨body, made⟩ := Option.ne_none_iff_exists'.1 storable
        obtain ⟨fresh, room⟩ := Body.forLength?_room made
        rw [admitFraming_declared legal payload empty, openBody, made]
        exact ⟨_, rfl, ⟨headed.method, headed.target, headed.version, headed.headers,
          headed.failure, ⟨fresh, room⟩⟩, by simp [empty]⟩

/-- A complete head overflows when there is no place for what it declares. -/
theorem completeHead_overflows {written : WrittenRequest} (legal : written.Legal limits)
    {request : Request}
    (gathered : Gathered (Bytes.ofText written.target) written.rawFields request)
    {data : Bytes} (declared : written.payload = .declared data)
    (homeless : ¬ written.Storable limits) :
    (completeHead limits written.facts request).1 = some .overflow := by
  obtain ⟨described, same, headed, noBody⟩ := completeHead_framing legal gathered
  have nonempty : data ≠ [] := by
    rintro rfl
    exact homeless (.inl (by rw [declared]; rfl))
  rw [storable_declared declared nonempty, Decidable.not_not] at homeless
  rw [same, admitFraming_declared legal declared nonempty, openBody, homeless]

/-! ## Bodies -/

/-- A fragment goes behind what the body holds, once there is a body. -/
theorem addBody_eq {fragment : Bytes} {request : Request} {body next : Body}
    (nonempty : fragment ≠ [])
    (word : (request.body.map (·.size)).getD 0 + fragment.length < Bytes.wordBound)
    (within : (request.body.map (·.size)).getD 0 + fragment.length ≤ limits.maxContentLength)
    (opened : request.body = some body ∨ request.body = none ∧
      Body.forLength? none limits.spoolThreshold limits.maxContentLength = some body)
    (stored : body.write fragment limits.spoolThreshold = (next, none)) :
    addBody limits fragment request =
      accept { request with expectContinue := false, body := some next } := by
  have some_octets : fragment.isEmpty = false := List.isEmpty_eq_false_iff.2 nonempty
  have inWord := Nat.not_le.2 word
  have inLimit := Nat.not_lt.2 within
  simp only [addBody, some_octets, inWord, inLimit, if_false, Bool.false_eq_true]
  rcases opened with present | ⟨absent, made⟩
  · simp only [present, andThen_accept, stored]
  · simp only [absent, openBody, made, accept, andThen, stored]

/-- The content of a body so far, which has room up to the limit. -/
def Holds (limits : Limits) (data : Bytes) (place : Option Body) : Prop :=
  match place with
  | none => data = []
  | some body => body.content = data ∧ body.HasRoom limits.maxContentLength

theorem Holds.size {data : Bytes} {place : Option Body} (holds : Holds limits data place) :
    (place.map (·.size)).getD 0 = data.length := by
  cases place with
  | none => rw [show data = [] from holds]; rfl
  | some body => exact congrArg List.length holds.1

/-- A fragment for which there is a place goes behind the content, and out of memory if the
threshold is passed. -/
theorem addBody_stores {data fragment : Bytes} {request : Request}
    (holds : Holds limits data request.body)
    (word : data.length + fragment.length < Bytes.wordBound)
    (within : data.length + fragment.length ≤ limits.maxContentLength)
    (nonempty : fragment ≠ [])
    (placed : request.body = none → limits.maxContentLength + 1 < Bytes.wordBound) :
    ∃ body, addBody limits fragment request =
        accept { request with expectContinue := false, body := some body } ∧
      Holds limits (data ++ fragment) (some body) ∧
      body.isSpooled = (request.body.any Body.isSpooled ||
        decide (limits.spoolThreshold < data.length + fragment.length)) := by
  obtain ⟨body, opened, content, room, spooled⟩ : ∃ body : Body,
      (request.body = some body ∨ request.body = none ∧
        Body.forLength? none limits.spoolThreshold limits.maxContentLength = some body) ∧
      body.content = data ∧ body.HasRoom limits.maxContentLength ∧
      body.isSpooled = request.body.any Body.isSpooled := by
    cases place : request.body with
    | some body =>
        rw [place] at holds
        exact ⟨body, .inl rfl, holds.1, holds.2, rfl⟩
    | none =>
        rw [place] at holds
        -- the first fragment opens the body by the limit, as no length was announced
        have possible : ¬ Body.forLength? none limits.spoolThreshold limits.maxContentLength =
            none := by
          rw [Body.forLength?_eq_none]
          have := placed place
          omega
        obtain ⟨fresh, made⟩ := Option.ne_none_iff_exists'.1 possible
        obtain ⟨empty, room⟩ := Body.forLength?_room made
        exact ⟨fresh, .inr ⟨rfl, made⟩, by rw [empty]; exact Eq.symm holds, room,
          Body.forLength?_isSpooled made⟩
  have received := holds.size
  have size : body.size = data.length := congrArg List.length content
  obtain ⟨next, stored, contents, stillRoom⟩ := Body.write_within room fragment
    (by rw [size]; exact within) limits.spoolThreshold
  refine ⟨next, addBody_eq nonempty (by omega) (by omega) opened stored,
    ⟨by rw [contents, content], stillRoom⟩, ?_⟩
  have here := Body.write_isSpooled body fragment limits.spoolThreshold
  rwa [stored, spooled, size] at here

/-- A fragment for which there is a place is added to what the body holds. -/
theorem addBody_accepts {written : WrittenRequest} {data fragment : Bytes} {request : Request}
    (headed : Headed limits written data request) (word : limits.maxContentLength < Bytes.wordBound)
    (within : data.length + fragment.length ≤ limits.maxContentLength)
    (nonempty : fragment ≠ [])
    (placed : request.body = none → limits.maxContentLength + 1 < Bytes.wordBound) :
    ∃ next, addBody limits fragment request = accept next ∧
      Headed limits written (data ++ fragment) next ∧ next.body ≠ none := by
  obtain ⟨body, added, holds, -⟩ :=
    addBody_stores headed.body (Nat.lt_of_le_of_lt within word) within nonempty placed
  exact ⟨_, added, ⟨headed.method, headed.target, headed.version, headed.headers, headed.failure,
    holds⟩, by simp⟩

/-- The first fragment of a body for which there is no place. -/
theorem addBody_overflows {fragment : Bytes} {request : Request} (noBody : request.body = none)
    (nonempty : fragment ≠ []) (within : fragment.length ≤ limits.maxContentLength)
    (homeless : Bytes.wordBound ≤ limits.maxContentLength + 1) :
    (addBody limits fragment request).1 = some .overflow := by
  have some_octets : fragment.isEmpty = false := List.isEmpty_eq_false_iff.2 nonempty
  have inLimit : ¬ limits.maxContentLength < 0 + fragment.length := by omega
  have missing : Body.forLength? none limits.spoolThreshold limits.maxContentLength = none := by
    rw [Body.forLength?_eq_none]
    exact ⟨homeless, by simp⟩
  simp only [addBody, some_octets, noBody, Option.map_none, Option.getD_none, Bool.false_eq_true,
    if_false, inLimit]
  split
  · rfl
  · simp only [openBody, missing]
    rfl

/-- **Fragments of a body for which there is a place add up to the body.** -/
theorem deliver_bodies {written : WrittenRequest} (word : limits.maxContentLength < Bytes.wordBound)
    {data : Bytes} {fragments : List Bytes} {request : Request}
    (headed : Headed limits written data request)
    (within : data.length + fragments.flatten.length ≤ limits.maxContentLength)
    (nonempty : ∀ fragment ∈ fragments, fragment ≠ [])
    (placed : request.body = none → fragments = [] ∨
      limits.maxContentLength + 1 < Bytes.wordBound) (queue : RequestQueue) :
    ∃ next, deliver (listener limits) (fragments.map .body) (queue.push request) =
        (none, queue.push next) ∧ Headed limits written (data ++ fragments.flatten) next := by
  induction fragments generalizing data request with
  | nil => exact ⟨request, rfl, by simpa using headed⟩
  | cons fragment rest ih =>
      simp only [List.flatten_cons, List.length_append] at within
      have here := nonempty fragment List.mem_cons_self
      obtain ⟨middle, added, stillHeaded, present⟩ := addBody_accepts headed word (by omega) here
        fun absent => (placed absent).resolve_left (by simp)
      obtain ⟨next, told, done⟩ := ih stillHeaded
        (by simp only [List.length_append]; omega)
        (fun f member => nonempty f (List.mem_cons_of_mem _ member))
        (fun absent => absurd absent present)
      refine ⟨next, ?_, by simpa using done⟩
      have some_octets : fragment.isEmpty = false := List.isEmpty_eq_false_iff.2 here
      simp only [List.map_cons, deliver, listener, some_octets, Bool.false_eq_true, if_false,
        changeLast_push, added, accept, told]

/-! ## Whole requests -/

/-- What an application reads of a body is its content. -/
theorem readAs_of_headed {written : WrittenRequest} {request : Request}
    (headed : Headed limits written written.payload.data request) :
    written.ReadAs { request with complete := true } where
  complete := rfl
  sound := headed.failure
  method := headed.method
  target := headed.target
  version := headed.version
  headers := headed.headers
  body := by
    intro origin
    have held := headed.body
    cases place : request.body with
    | none =>
        rw [place] at held
        rw [held]
        simp only [Environ.ofRequest]
        rfl
    | some body =>
        rw [place] at held
        simp only [Environ.ofRequest]
        rw [Input.readAll_ofBody, held.1]

/-- The head of a request, up to the facts. -/
theorem deliver_head {written : WrittenRequest} (legal : written.Legal limits)
    (queue : RequestQueue) :
    ∃ request, Gathered (Bytes.ofText written.target) written.rawFields request ∧
      ∀ rest, deliver (listener limits) (.begin :: written.headEvents ++ rest) queue =
        deliver (listener limits) (.head written.facts :: rest) (queue.push request) := by
  obtain ⟨started, targeted, gathered⟩ := gathered_target legal.target_size
  have fit : ∀ field ∈ written.rawFields,
      field.1.length ≤ Draft.fieldLimit ∧ field.2.length ≤ Draft.fieldLimit := by
    intro field member
    obtain ⟨source, isField, rfl⟩ := List.mem_map.1 member
    have fieldLegal := legal.fields_legal source isField
    exact ⟨fieldLegal.name_size, fieldLegal.value_size⟩
  obtain ⟨request, told, all⟩ := deliver_fields limits gathered
    (by simpa [WrittenRequest.rawFields] using legal.fields_count) fit queue
  refine ⟨request, by simpa using all, fun rest => ?_⟩
  have spelled : .begin :: written.headEvents ++ rest =
      [.begin, .target (Bytes.ofText written.target)] ++
        (Head.fieldEvents written.rawFields ++ .head written.facts :: rest) := by
    simp [WrittenRequest.headEvents]
  have begun : deliver (listener limits) [.begin, .target (Bytes.ofText written.target)] queue =
      (none, queue.push started) := by
    simp only [deliver, listener, changeLast_push, targeted, accept]
  rw [spelled, Parser.deliver_append, begun]
  simp only
  rw [Parser.deliver_append, told]

theorem fragments_eq_nil {fragments : List Bytes} (whole : fragments.flatten = [])
    (nonempty : ∀ fragment ∈ fragments, fragment ≠ []) : fragments = [] := by
  cases fragments with
  | nil => rfl
  | cons first rest =>
      have := List.flatten_eq_nil_iff.1 whole first List.mem_cons_self
      exact absurd this (nonempty first List.mem_cons_self)

/-- **A written request is built as it was written, when there is a place for its body.** -/
theorem deliver_request {written : WrittenRequest} (legal : written.Legal limits)
    (word : limits.maxContentLength < Bytes.wordBound) (storable : written.Storable limits)
    {fragments : List Bytes} (whole : fragments.flatten = written.payload.data)
    (nonempty : ∀ fragment ∈ fragments, fragment ≠ []) (queue : RequestQueue) :
    ∃ request, deliver (listener limits)
        (.begin :: written.headEvents ++ (fragments.map .body ++ [.complete])) queue =
          (none, queue.push request) ∧ written.ReadAs request := by
  obtain ⟨gathering, gathered, head⟩ := deliver_head legal queue
  obtain ⟨opened, accepted, headed, placed⟩ :=
    completeHead_accepts legal gathered fun _ _ => storable
  have homed : opened.body = none → fragments = [] ∨
      limits.maxContentLength + 1 < Bytes.wordBound := by
    intro absent
    rcases storable with empty | word | ⟨data, declared, -⟩
    · exact .inl (fragments_eq_nil (by rw [whole, empty]) nonempty)
    · exact .inr word
    · refine .inl (fragments_eq_nil ?_ nonempty)
      rw [whole, declared]
      exact placed.1 absent data declared
  have size := legal.body_size
  obtain ⟨filled, told, done⟩ := deliver_bodies word headed
    (by simpa [whole] using size) nonempty homed queue
  refine ⟨{ filled with complete := true }, ?_, readAs_of_headed (by simpa [whole] using done)⟩
  rw [head, deliver]
  simp only [listener, changeLast_push, accepted, accept]
  rw [Parser.deliver_append, told]
  simp only [deliver, listener, changeLast_push, accept]

/-- **Without a place for its body, a written request overflows.** -/
theorem deliver_request_overflows {written : WrittenRequest} (legal : written.Legal limits)
    (homeless : ¬ written.Storable limits) {fragments : List Bytes}
    (whole : fragments.flatten = written.payload.data)
    (nonempty : ∀ fragment ∈ fragments, fragment ≠ []) (queue : RequestQueue) (rest : List Event) :
    (deliver (listener limits)
      (.begin :: written.headEvents ++ (fragments.map .body ++ rest)) queue).1 =
        some .overflow := by
  obtain ⟨gathering, gathered, head⟩ := deliver_head legal queue
  rw [head, deliver]
  simp only [listener, changeLast_push]
  by_cases declares : ∃ data, written.payload = .declared data
  · obtain ⟨data, declared⟩ := declares
    simp only [completeHead_overflows legal gathered declared homeless]
  · have undeclared : ∀ data, written.payload ≠ .declared data := fun data same =>
      declares ⟨data, same⟩
    obtain ⟨opened, accepted, headed, placed⟩ := completeHead_accepts legal gathered
      fun data same => absurd same (undeclared data)
    have absent := placed.2 fun data same => absurd same (undeclared data)
    simp only [WrittenRequest.Storable, not_or, undeclared, false_and, exists_false,
      not_false_eq_true, and_true] at homeless
    have size := legal.body_size
    cases fragments with
    | nil => exact absurd whole.symm homeless.1
    | cons first others =>
        have here := nonempty first List.mem_cons_self
        have some_octets : first.isEmpty = false := List.isEmpty_eq_false_iff.2 here
        rw [← whole, List.flatten_cons, List.length_append] at size
        have overflows := addBody_overflows absent here (by omega) (Nat.not_lt.1 homeless.2)
        simp only [accepted, accept, List.map_cons, List.cons_append, deliver, listener,
          some_octets, Bool.false_eq_true, if_false, changeLast_push, overflows]

end Assembly

end EmbeddedHttp
