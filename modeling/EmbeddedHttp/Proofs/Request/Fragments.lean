/-
# EmbeddedHttp.Proofs.Request.Fragments -- a head that comes in fragments

A target, names and values may come in any fragments.  Each kind of fragment goes into a buffer
of its own, so fragments told one after the other are one write of all of them
(`Assembly.deliver_fragments`): stored as a whole while they keep within the limit, and refused
otherwise.  A field is stored with the next event that is not part of it (`Assembly.Pending`);
up to there, what was told is the target and the fields, whole, or it is refused because one of
them or their number exceeds its limit (`CutMessage.deliver_gathering`).
-/
import EmbeddedHttp.Proofs.Request.Building

namespace EmbeddedHttp

set_option autoImplicit false

/-! ## Messages in fragments -/

/-- A field in fragments, at least one of its name and one of its value. -/
structure CutField where
  name : List Bytes
  value : List Bytes
  named : name ≠ []
  valued : value ≠ []

namespace CutField

/-- The field as it was before it was cut. -/
def field (cut : CutField) : Bytes × Bytes := (cut.name.flatten, cut.value.flatten)

def events (cut : CutField) : List Event := cut.name.map .fieldName ++ cut.value.map .fieldValue

/-- The field in one piece. -/
def whole (cut : CutField) : CutField where
  name := [cut.name.flatten]
  value := [cut.value.flatten]
  named := List.cons_ne_nil _ _
  valued := List.cons_ne_nil _ _

/-- Its name and its value keep within their limit. -/
def Fits (cut : CutField) : Prop :=
  cut.name.flatten.length ≤ Draft.fieldLimit ∧ cut.value.flatten.length ≤ Draft.fieldLimit

instance (cut : CutField) : Decidable cut.Fits := inferInstanceAs (Decidable (_ ∧ _))

theorem field_whole (cut : CutField) : cut.whole.field = cut.field := by
  simp [whole, field]

theorem fits_whole (cut : CutField) : cut.whole.Fits ↔ cut.Fits := by
  simp [whole, Fits]

end CutField

/-- A message in fragments, up to its end. -/
structure CutMessage where
  target : List Bytes
  fields : List CutField
  facts : HeadFacts
  body : List Bytes
  /-- The body can also come in one piece, whose length is a 64-bit number. -/
  countable : body.flatten.length < Bytes.wordBound

namespace CutMessage

/-- What is told of the message before its head is complete. -/
def gathering (message : CutMessage) : List Event :=
  .begin :: (message.target.map .target ++ message.fields.flatMap CutField.events)

def events (message : CutMessage) : List Event :=
  message.gathering ++ .head message.facts :: message.body.map .body

/-- The message with each of its items in one piece. -/
def whole (message : CutMessage) : CutMessage where
  target := [message.target.flatten]
  fields := message.fields.map CutField.whole
  facts := message.facts
  body := [message.body.flatten]
  countable := by simpa using message.countable

/-- The target, a name, a value or the number of fields exceeds its limit. -/
def TooLarge (message : CutMessage) : Prop :=
  Draft.targetLimit < message.target.flatten.length ∨
    (∃ field ∈ message.fields, ¬ field.Fits) ∨ Request.maxFields < message.fields.length

instance (message : CutMessage) : Decidable message.TooLarge :=
  inferInstanceAs (Decidable (_ ∨ _ ∨ _))

theorem tooLarge_whole (message : CutMessage) : message.whole.TooLarge ↔ message.TooLarge := by
  have fields : (∃ field ∈ message.whole.fields, ¬ field.Fits) ↔
      ∃ field ∈ message.fields, ¬ field.Fits := by
    constructor
    · rintro ⟨_, member, long⟩
      obtain ⟨field, isField, rfl⟩ := List.mem_map.1 member
      exact ⟨field, isField, fun fits => long (field.fits_whole.2 fits)⟩
    · rintro ⟨field, member, long⟩
      exact ⟨field.whole, List.mem_map_of_mem member, fun fits => long (field.fits_whole.1 fits)⟩
  unfold TooLarge
  rw [fields]
  simp [whole]

end CutMessage

/-- Behind a refusal nothing is told. -/
theorem deliver_append_refused {σ : Type} {listener : Listener σ} {first : List Event} {state : σ}
    {refusal : Refusal} (refused : (deliver listener first state).1 = some refusal)
    (second : List Event) : (deliver listener (first ++ second) state).1 = some refusal := by
  rw [Parser.deliver_append]
  generalize deliver listener first state = told at refused ⊢
  obtain ⟨verdict, next⟩ := told
  rw [show verdict = _ from refused]

namespace Assembly

variable {limits : Limits} {target : Bytes} {done : List (Bytes × Bytes)} {request : Request}

/-! ## Fragments that go into one buffer -/

theorem unlessExcess_none {excess : Option Nat} (whole : excess = none) (request : Request) :
    unlessExcess excess request = accept request := by
  rw [whole]
  rfl

theorem unlessExcess_some {excess : Option Nat} (cut : excess.isSome = true) (request : Request) :
    unlessExcess excess request = refuse .badRequest request := if_pos cut

section Gathering

variable {event : Bytes → Event} {add : Bytes → Request → Change} {place : Buffer → Request}

/-- **Fragments that go into one buffer are one write of all of them.**  They are stored if they
keep within the limit, and else refused. -/
theorem deliver_fragments
    (heard : ∀ bytes queue, listener limits (event bytes) queue = changeLast (add bytes) queue)
    (adds : ∀ bytes buffer, add bytes (place buffer) =
      unlessExcess (buffer.write bytes).2 (place (buffer.write bytes).1))
    {buffer : Buffer} (bounded : buffer.Bounded) (fragments : List Bytes) (queue : RequestQueue) :
    if buffer.size + fragments.flatten.length ≤ buffer.limit then
      ∃ next, deliver (listener limits) (fragments.map event) (queue.push (place buffer)) =
          (none, queue.push (place next)) ∧
        next.data = buffer.data ++ fragments.flatten ∧ next.limit = buffer.limit ∧ next.Bounded
    else
      (deliver (listener limits) (fragments.map event) (queue.push (place buffer))).1 =
        some (.status .badRequest) := by
  induction fragments generalizing buffer with
  | nil =>
      rw [if_pos (by simpa using bounded.size)]
      exact ⟨buffer, rfl, by simp, rfl, bounded⟩
  | cons first rest ih =>
      simp only [List.map_cons, deliver, heard, changeLast_push, adds, List.flatten_cons,
        List.length_append]
      by_cases fits : buffer.size + first.length ≤ buffer.limit
      · obtain ⟨next, written, data, limit, still⟩ := bounded.write_fits fits
        have size : next.size = buffer.size + first.length := by
          unfold Buffer.size
          rw [data, List.length_append]
        have later := ih still
        rw [size, limit, Nat.add_assoc] at later
        simp only [written, unlessExcess_none, accept]
        split
        · rename_i within
          rw [if_pos within] at later
          obtain ⟨last, told, all, same, bounded⟩ := later
          exact ⟨last, told, by rw [all, data, List.append_assoc], same, bounded⟩
        · rename_i beyond
          rw [if_neg beyond] at later
          exact later
      · have crosses := bounded.write_crosses (Nat.not_le.1 fits)
        rw [if_neg (by omega), unlessExcess_some crosses]
        rfl

end Gathering

/-! ## Targets -/

/-- A request of which nothing is known but its target so far. -/
def aiming (buffer : Buffer) : Request :=
  { Request.new with draft := { Draft.empty with target := buffer } }

theorem deliver_target (limits : Limits) (fragments : List Bytes) (queue : RequestQueue) :
    if fragments.flatten.length ≤ Draft.targetLimit then
      ∃ next : Buffer, deliver (listener limits) (fragments.map .target) (queue.push Request.new) =
        (none, queue.push (aiming next)) ∧ next.data = fragments.flatten
    else
      (deliver (listener limits) (fragments.map .target) (queue.push Request.new)).1 =
        some (.status .badRequest) := by
  have told := @deliver_fragments limits .target addTarget aiming (fun _ _ => rfl) (fun _ _ => rfl)
    Draft.empty.target (Buffer.bounded_new 256 _) fragments queue
  have empty : Draft.empty.target.size + fragments.flatten.length = fragments.flatten.length :=
    Nat.zero_add _
  have limit : Draft.empty.target.limit = Draft.targetLimit := rfl
  rw [empty, limit] at told
  split
  · rename_i fits
    rw [if_pos fits] at told
    obtain ⟨next, told, data, -⟩ := told
    exact ⟨next, told, data⟩
  · rename_i long
    rw [if_neg long] at told
    exact told

/-! ## Fields -/

/-- The target is gathered, and nothing of a field. -/
structure AtRest (target : Bytes) (draft : Draft) : Prop where
  target : draft.target.data = target
  name : draft.name.data = []
  name_limit : draft.name.limit = Draft.fieldLimit
  name_bounded : draft.name.Bounded
  value : draft.value.data = []
  value_limit : draft.value.limit = Draft.fieldLimit
  value_bounded : draft.value.Bounded

/-- A request of which some fields are stored, and nothing else is known. -/
def filed (fields : List (Bytes × Bytes)) (draft : Draft) : Request :=
  { Request.new with headers := texts fields, draft := draft }

/-- A request behind a target and some fields: the last one is stored with the next event, if
there is room for one more. -/
def Pending (target : Bytes) (fields : List (Bytes × Bytes)) (request : Request) : Prop :=
  ∃ draft : Draft, AtRest target draft ∧
    storeField request =
      if Request.maxFields < fields.length then refuse .badRequest request
      else accept (filed fields draft)

theorem pending_aiming {buffer : Buffer} : Pending buffer.data [] (aiming buffer) :=
  ⟨{ Draft.empty with target := buffer },
    ⟨rfl, rfl, rfl, Buffer.bounded_new 64 _, rfl, rfl, Buffer.bounded_new 128 _⟩, rfl⟩

/-- A field is being named behind those that are stored. -/
def naming (done : List (Bytes × Bytes)) (draft : Draft) (name : Buffer) : Request :=
  filed done { draft with name := name, last := .name }

/-- A field gets its value behind those that are stored. -/
def valuing (done : List (Bytes × Bytes)) (draft : Draft) (name value : Buffer) : Request :=
  filed done { draft with name := name, value := value, last := .value }

/-- The first fragment of a name stores the field before it. -/
theorem deliver_name (limits : Limits) {draft : Draft} (rest : AtRest target draft)
    (stored : storeField request = accept (filed done draft)) {fragments : List Bytes}
    (nonempty : fragments ≠ []) (queue : RequestQueue) :
    if fragments.flatten.length ≤ Draft.fieldLimit then
      ∃ name : Buffer, deliver (listener limits) (fragments.map .fieldName) (queue.push request) =
          (none, queue.push (naming done draft name)) ∧
        name.data = fragments.flatten ∧ name.limit = Draft.fieldLimit ∧ name.Bounded
    else
      (deliver (listener limits) (fragments.map .fieldName) (queue.push request)).1 =
        some (.status .badRequest) := by
  have told := @deliver_fragments limits .fieldName addName (naming done draft) (fun _ _ => rfl)
    (fun _ _ => rfl) draft.name rest.name_bounded fragments queue
  have same : deliver (listener limits) (fragments.map .fieldName) (queue.push request) =
      deliver (listener limits) (fragments.map .fieldName)
        (queue.push (naming done draft draft.name)) := by
    obtain ⟨first, others, rfl⟩ := List.exists_cons_of_ne_nil nonempty
    have first_same : addName first request = addName first (naming done draft draft.name) := by
      rw [addName, stored]
      rfl
    simp only [List.map_cons, deliver, listener, changeLast_push, first_same]
  rw [same]
  simpa only [Buffer.size, rest.name, rest.name_limit, List.length_nil, Nat.zero_add,
    List.nil_append] using told

/-- The value of a field that was named. -/
theorem deliver_value (limits : Limits) (done : List (Bytes × Bytes)) {draft : Draft}
    (rest : AtRest target draft) (name : Buffer) {fragments : List Bytes}
    (nonempty : fragments ≠ []) (queue : RequestQueue) :
    if fragments.flatten.length ≤ Draft.fieldLimit then
      ∃ value : Buffer, deliver (listener limits) (fragments.map .fieldValue)
          (queue.push (naming done draft name)) =
          (none, queue.push (valuing done draft name value)) ∧
        value.data = fragments.flatten ∧ value.limit = Draft.fieldLimit ∧ value.Bounded
    else
      (deliver (listener limits) (fragments.map .fieldValue)
        (queue.push (naming done draft name))).1 = some (.status .badRequest) := by
  have told := @deliver_fragments limits .fieldValue addValue (valuing done draft name)
    (fun _ _ => rfl) (fun _ _ => rfl) draft.value rest.value_bounded fragments queue
  have same : deliver (listener limits) (fragments.map .fieldValue)
        (queue.push (naming done draft name)) =
      deliver (listener limits) (fragments.map .fieldValue)
        (queue.push (valuing done draft name draft.value)) := by
    obtain ⟨first, others, rfl⟩ := List.exists_cons_of_ne_nil nonempty
    have first_same : addValue first (naming done draft name) =
        addValue first (valuing done draft name draft.value) := rfl
    simp only [List.map_cons, deliver, listener, changeLast_push, first_same]
  rw [same]
  simpa only [Buffer.size, rest.value, rest.value_limit, List.length_nil, Nat.zero_add,
    List.nil_append] using told

/-- Behind its value a field is stored with the next event. -/
theorem pending_valuing {draft : Draft} {name value : Buffer} (rest : AtRest target draft)
    (nameLimit : name.limit = Draft.fieldLimit) (nameBounded : name.Bounded)
    (valueLimit : value.limit = Draft.fieldLimit) (valueBounded : value.Bounded) :
    Pending target (done ++ [(name.data, value.data)]) (valuing done draft name value) := by
  refine ⟨{ draft with name := name.clear, value := value.clear, last := .value },
    ⟨rest.target, rfl, nameLimit, nameBounded.clear, rfl, valueLimit, valueBounded.clear⟩, ?_⟩
  have count : (done ++ [(name.data, value.data)]).length = done.length + 1 := by
    simp
  have headers : (valuing done draft name value).headers = texts done := rfl
  have both : texts (done ++ [(name.data, value.data)]) =
      texts done ++ [(Utf8.decodeLossy name.data, Utf8.decodeLossy value.data)] := by
    simp [texts]
  rw [count]
  unfold storeField
  simp only [headers, texts_length]
  show (if Request.maxFields ≤ done.length then _ else _) = _
  by_cases full : Request.maxFields ≤ done.length
  · rw [if_pos full, if_pos (by omega)]
  · rw [if_neg full, if_neg (by omega), filed, both]
    rfl

/-- **A field in fragments is gathered whole**, if there is room for it and it keeps within its
limits; else it is refused. -/
theorem deliver_field (limits : Limits) (pending : Pending target done request) (cut : CutField)
    (queue : RequestQueue) :
    if done.length ≤ Request.maxFields ∧ cut.Fits then
      ∃ next, deliver (listener limits) cut.events (queue.push request) =
        (none, queue.push next) ∧ Pending target (done ++ [cut.field]) next
    else
      (deliver (listener limits) cut.events (queue.push request)).1 =
        some (.status .badRequest) := by
  obtain ⟨draft, rest, stored⟩ := pending
  unfold CutField.events
  by_cases room : done.length ≤ Request.maxFields
  · rw [if_neg (Nat.not_lt.2 room)] at stored
    have name := deliver_name limits rest stored cut.named queue
    by_cases nameFits : cut.name.flatten.length ≤ Draft.fieldLimit
    · rw [if_pos nameFits] at name
      obtain ⟨name, named, nameData, nameLimit, nameBounded⟩ := name
      have value := deliver_value limits done rest name cut.valued queue
      rw [Parser.deliver_append, named]
      simp only
      by_cases valueFits : cut.value.flatten.length ≤ Draft.fieldLimit
      · rw [if_pos valueFits] at value
        obtain ⟨value, valued, valueData, valueLimit, valueBounded⟩ := value
        rw [if_pos ⟨room, nameFits, valueFits⟩, CutField.field, ← nameData, ← valueData]
        exact ⟨_, valued, pending_valuing rest nameLimit nameBounded valueLimit valueBounded⟩
      · rw [if_neg valueFits] at value
        rw [if_neg fun both => valueFits both.2.2]
        exact value
    · rw [if_neg nameFits] at name
      rw [if_neg fun both => nameFits both.2.1]
      exact deliver_append_refused name _
  · rw [if_pos (Nat.not_le.1 room)] at stored
    rw [if_neg fun both => room both.1]
    obtain ⟨first, others, spelled⟩ := List.exists_cons_of_ne_nil cut.named
    have refused : addName first request = refuse .badRequest request := by
      rw [addName, stored]
      rfl
    simp only [spelled, List.map_cons, List.cons_append, deliver, listener, changeLast_push,
      refused, refuse]

/-- **Fields in fragments are gathered whole**, or refused because one of them does not fit or
there are too many. -/
theorem deliver_cutFields (limits : Limits) (pending : Pending target done request)
    (cuts : List CutField) (queue : RequestQueue) :
    (∃ next, deliver (listener limits) (cuts.flatMap CutField.events) (queue.push request) =
        (none, queue.push next) ∧ Pending target (done ++ cuts.map CutField.field) next ∧
        ∀ cut ∈ cuts, cut.Fits) ∨
      (deliver (listener limits) (cuts.flatMap CutField.events) (queue.push request)).1 =
          some (.status .badRequest) ∧
        ((∃ cut ∈ cuts, ¬ cut.Fits) ∨ Request.maxFields < done.length + cuts.length) := by
  induction cuts generalizing done request with
  | nil =>
      refine .inl ⟨request, rfl, ?_, nofun⟩
      rwa [List.map_nil, List.append_nil]
  | cons cut others ih =>
      have first := deliver_field limits pending cut queue
      rw [List.flatMap_cons, List.length_cons]
      by_cases fits : done.length ≤ Request.maxFields ∧ cut.Fits
      · rw [if_pos fits] at first
        obtain ⟨middle, told, still⟩ := first
        rw [Parser.deliver_append, told]
        simp only
        rcases ih still with ⟨next, further, there, all⟩ | ⟨refused, cause⟩
        · refine .inl ⟨next, further, ?_, List.forall_mem_cons.2 ⟨fits.2, all⟩⟩
          rwa [List.append_assoc] at there
        · refine .inr ⟨refused, ?_⟩
          rw [List.length_append, List.length_singleton] at cause
          rcases cause with ⟨other, member, long⟩ | many
          · exact .inl ⟨other, List.mem_cons_of_mem _ member, long⟩
          · exact .inr (by omega)
      · rw [if_neg fits] at first
        refine .inr ⟨deliver_append_refused first _, ?_⟩
        by_cases long : cut.Fits
        · have full : ¬ done.length ≤ Request.maxFields := fun room => fits ⟨room, long⟩
          exact .inr (by omega)
        · exact .inl ⟨cut, List.mem_cons_self, long⟩

end Assembly

namespace CutMessage

open Assembly

/-- **What is told before a head is complete is its target and its fields**, whichever way they
were cut; or the message is too large, and is refused for that, at the latest when its last
field is stored. -/
theorem deliver_gathering (message : CutMessage) (limits : Limits) (queue : RequestQueue) :
    (message.TooLarge ∧
      ((deliver (listener limits) message.gathering queue).1 = some (.status .badRequest) ∨
        ∃ request, deliver (listener limits) message.gathering queue =
          (none, queue.push request) ∧ storeField request = refuse .badRequest request)) ∨
      ¬ message.TooLarge ∧ ∃ request draft,
        deliver (listener limits) message.gathering queue = (none, queue.push request) ∧
          storeField request = accept (filed (message.fields.map CutField.field) draft) ∧
          draft.target.data = message.target.flatten := by
  have begun : deliver (listener limits) message.gathering queue =
      deliver (listener limits)
        (message.target.map .target ++ message.fields.flatMap CutField.events)
        (queue.push Request.new) := rfl
  rw [begun]
  have aimed := deliver_target limits message.target queue
  by_cases short : message.target.flatten.length ≤ Draft.targetLimit
  · rw [if_pos short] at aimed
    obtain ⟨buffer, told, data⟩ := aimed
    rw [Parser.deliver_append, told]
    simp only
    have start : Pending message.target.flatten [] (aiming buffer) := data ▸ pending_aiming
    rcases deliver_cutFields limits start message.fields queue with
      ⟨next, told, ⟨draft, rest, stored⟩, all⟩ | ⟨refused, cause⟩
    · rw [List.nil_append, List.length_map] at stored
      rw [told]
      by_cases many : Request.maxFields < message.fields.length
      · rw [if_pos many] at stored
        exact .inl ⟨.inr (.inr many), .inr ⟨next, rfl, stored⟩⟩
      · rw [if_neg many] at stored
        refine .inr ⟨?_, next, draft, rfl, stored, rest.target⟩
        rintro (long | ⟨cut, member, long⟩ | large)
        · omega
        · exact long (all cut member)
        · exact many large
    · rw [List.length_nil, Nat.zero_add] at cause
      exact .inl ⟨.inr cause, .inl refused⟩
  · rw [if_neg short] at aimed
    exact .inl ⟨.inl (Nat.not_le.1 short), .inl (deliver_append_refused aimed _)⟩

end CutMessage

end EmbeddedHttp
