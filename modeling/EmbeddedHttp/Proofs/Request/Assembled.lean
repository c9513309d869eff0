/-
# EmbeddedHttp.Proofs.Request.Assembled -- requests do not show how their messages were cut

What becomes of a head depends on the fields and the target alone: the buffers that gathered them
are carried along and never looked at again (`Assembly.settle_redraft`).  What becomes of a body
depends on all of it: whether it is refused (`Assembly.bodyVerdict`), and what is kept of it
(`Assembly.Amassed`).  Hence a message in fragments is taken or refused as the message in one
piece is, and makes the same request (`CutMessage.assembled_whole`).
-/
import EmbeddedHttp.Proofs.Request.Fragments
import EmbeddedHttp.Proofs.Request.Asking

namespace EmbeddedHttp

set_option autoImplicit false

/-- The same request, but for the buffers that gathered its parts. -/
structure Request.Alike (one other : Request) : Prop where
  known : { one with draft := other.draft, body := other.body } = other
  content : one.body.map Body.content = other.body.map Body.content
  place : one.body.map Body.isSpooled = other.body.map Body.isSpooled

namespace Assembly

variable {limits : Limits} {facts : HeadFacts} {request next base : Request} {draft : Draft}

/-! ## What becomes of a head -/

/-- What is made of a head whose last field is stored. -/
def settle (limits : Limits) (facts : HeadFacts) (request : Request) : Change :=
  andThen (describe limits facts request) fun request =>
    andThen (checkHandshake facts request) fun request =>
      andThen (noteExpectation facts request) fun request => admitFraming limits facts request

theorem completeHead_settle (limits : Limits) (facts : HeadFacts) (request : Request) :
    completeHead limits facts request = andThen (storeField request) (settle limits facts) := rfl

/-- The same change of a request with another draft. -/
def redraft (draft : Draft) (change : Change) : Change :=
  (change.1, { change.2 with draft := draft })

theorem andThen_redraft {further : Request → Change}
    (keeps : ∀ request : Request,
      further { request with draft := draft } = redraft draft (further request))
    (change : Change) :
    andThen (redraft draft change) further = redraft draft (andThen change further) := by
  obtain ⟨refusal, request⟩ := change
  cases refusal with
  | some refusal => rfl
  | none => exact keeps request

theorem describe_redraft (same : draft.target.data = request.draft.target.data) :
    describe limits facts { request with draft := draft } =
      redraft draft (describe limits facts request) := by
  unfold describe
  cases Method.ofBytes? facts.method with
  | none => rfl
  | some method =>
      simp only [same]
      rfl

theorem checkHandshake_redraft (request : Request) :
    checkHandshake facts { request with draft := draft } =
      redraft draft (checkHandshake facts request) := by
  unfold checkHandshake Request.header?
  simp only
  split <;> rfl

theorem noteExpectation_redraft (request : Request) :
    noteExpectation facts { request with draft := draft } =
      redraft draft (noteExpectation facts request) := by
  unfold noteExpectation Request.header?
  simp only
  split
  · split <;> rfl
  · rfl

theorem openBody_redraft (declared : Option Nat) (request : Request) :
    openBody limits declared { request with draft := draft } =
      redraft draft (openBody limits declared request) := by
  unfold openBody
  split <;> rfl

theorem admitFraming_redraft (request : Request) :
    admitFraming limits facts { request with draft := draft } =
      redraft draft (admitFraming limits facts request) := by
  unfold admitFraming
  split
  · rename_i n framing
    split
    · rfl
    · simp only
      split
      · rfl
      · exact openBody_redraft (some n) { request with declaredLength := some n }
  · split <;> rfl
  · rfl

/-- **What becomes of a head is not seen in the draft**, but for the target. -/
theorem settle_redraft (same : draft.target.data = request.draft.target.data) :
    settle limits facts { request with draft := draft } =
      redraft draft (settle limits facts request) := by
  unfold settle
  rw [describe_redraft same]
  apply andThen_redraft
  intro request
  rw [checkHandshake_redraft]
  apply andThen_redraft
  intro request
  rw [noteExpectation_redraft]
  apply andThen_redraft
  intro request
  exact admitFraming_redraft request

theorem settle_filed {fields : List (Bytes × Bytes)} {other : Draft}
    (same : draft.target.data = other.target.data) :
    settle limits facts (filed fields draft) =
      redraft draft (settle limits facts (filed fields other)) :=
  @settle_redraft limits facts (filed fields other) draft same

/-- What a request says once its head is settled. -/
structure Described (limits : Limits) (request next : Request) : Prop where
  headers : next.headers = request.headers
  target : next.target = Utf8.decodeLossy request.draft.target.data
  path : next.path = Percent.decode (Target.split next.target).1
  query : next.query = (Target.split next.target).2
  body : Holds limits [] next.body

theorem describe_describes (describing : describe limits facts request = (none, next))
    (noBody : request.body = none) : Described limits request next := by
  unfold describe at describing
  split at describing
  · cases describing
  · cases describing
    refine ⟨rfl, rfl, rfl, rfl, ?_⟩
    show Holds limits [] request.body
    rw [noBody]
    rfl

theorem Described.noteExpectation {noted : Request} (described : Described limits request next)
    (noting : Assembly.noteExpectation facts next = (none, noted)) :
    Described limits request noted := by
  unfold Assembly.noteExpectation at noting
  split at noting
  · split at noting
    · cases noting
      exact ⟨described.headers, described.target, described.path, described.query, described.body⟩
    · cases noting
  · cases noting
    exact described

theorem Described.admitFraming {admitted : Request} (described : Described limits request next)
    (admitting : Assembly.admitFraming limits facts next = (none, admitted)) :
    Described limits request admitted := by
  unfold Assembly.admitFraming at admitting
  split at admitting
  · split at admitting
    · cases admitting
    · simp only at admitting
      split at admitting
      · cases admitting
        exact ⟨described.headers, described.target, described.path, described.query,
          described.body⟩
      · unfold openBody at admitting
        split at admitting
        · rename_i body made
          cases admitting
          exact ⟨described.headers, described.target, described.path, described.query,
            Body.forLength?_room made⟩
        · cases admitting
  · split at admitting
    · cases admitting
    · cases admitting
      exact described
  · cases admitting
    exact described

/-- A head that is settled says what was gathered, and the body is still empty. -/
theorem settle_describes (settled : settle limits facts request = (none, next))
    (noBody : request.body = none) : Described limits request next := by
  obtain ⟨described, describing, settled⟩ := andThen_ok settled
  obtain ⟨checked, checking, settled⟩ := andThen_ok settled
  obtain ⟨noted, noting, admitting⟩ := andThen_ok settled
  rw [checkHandshake_ok checking] at noting
  exact ((describe_describes describing noBody).noteExpectation noting).admitFraming admitting

/-! ## What becomes of a body -/

/-- Whether a body is refused, behind a head that made the base. -/
def bodyVerdict (limits : Limits) (base : Request) (data : Bytes) : Option Refusal :=
  if data = [] then none
  else if limits.maxContentLength < data.length then some (.status .payloadTooLarge)
  else if base.body = none ∧ Bytes.wordBound ≤ limits.maxContentLength + 1 then some .overflow
  else none

/-- What was refused stays refused, whatever else comes. -/
theorem bodyVerdict_append {data : Bytes} {refusal : Refusal}
    (refused : bodyVerdict limits base data = some refusal) (more : Bytes)
    (word : data.length + more.length < Bytes.wordBound) :
    bodyVerdict limits base (data ++ more) = some refusal := by
  unfold bodyVerdict at refused ⊢
  have length : (data ++ more).length = data.length + more.length := List.length_append
  split at refused
  · cases refused
  · rename_i nonempty
    rw [if_neg fun empty => nonempty (List.append_eq_nil_iff.1 empty).1]
    split at refused
    · rename_i large
      rw [if_pos (by omega)]
      exact refused
    · split at refused
      · rename_i homeless
        rw [if_neg (by omega), if_pos homeless]
        exact refused
      · cases refused

/-- A request behind its head, of whose body `data` came. -/
inductive Amassed (limits : Limits) (base : Request) : Bytes → Request → Prop where
  | nothing : Amassed limits base [] base
  | something {data : Bytes} {body : Body} (nonempty : data ≠ [])
      (holds : Holds limits data (some body))
      (place : body.isSpooled = (base.body.any Body.isSpooled ||
        decide (limits.spoolThreshold < data.length))) :
      Amassed limits base data { base with expectContinue := false, body := some body }

theorem Amassed.holds {data : Bytes} (amassed : Amassed limits base data request)
    (start : Holds limits [] base.body) : Holds limits data request.body := by
  cases amassed with
  | nothing => exact start
  | something nonempty holds place => exact holds

/-- One more fragment of a body. -/
theorem Amassed.add {data fragment : Bytes} (amassed : Amassed limits base data request)
    (start : Holds limits [] base.body) (nonempty : fragment ≠ [])
    (word : data.length + fragment.length < Bytes.wordBound)
    (sound : bodyVerdict limits base data = none) :
    (addBody limits fragment request).1 = bodyVerdict limits base (data ++ fragment) ∧
      (bodyVerdict limits base (data ++ fragment) = none →
        ∃ next, addBody limits fragment request = accept next ∧
          Amassed limits base (data ++ fragment) next) := by
  have holds := amassed.holds start
  have some_octets : fragment.isEmpty = false := List.isEmpty_eq_false_iff.2 nonempty
  have some_data : data ++ fragment ≠ [] := fun empty => nonempty (List.append_eq_nil_iff.1 empty).2
  have length : (data ++ fragment).length = data.length + fragment.length := List.length_append
  have verdict : bodyVerdict limits base (data ++ fragment) =
      if limits.maxContentLength < data.length + fragment.length then
        some (.status .payloadTooLarge)
      else if base.body = none ∧ Bytes.wordBound ≤ limits.maxContentLength + 1 then some .overflow
      else none := by
    rw [bodyVerdict, if_neg some_data, length]
  rw [verdict]
  by_cases large : limits.maxContentLength < data.length + fragment.length
  · rw [if_pos large]
    refine ⟨?_, fun sound => by cases sound⟩
    simp only [addBody, some_octets, Bool.false_eq_true, if_false, holds.size,
      if_neg (Nat.not_le.2 word), if_pos large]
    rfl
  · rw [if_neg large]
    by_cases homeless : base.body = none ∧ Bytes.wordBound ≤ limits.maxContentLength + 1
    · rw [if_pos homeless]
      refine ⟨?_, fun sound => by cases sound⟩
      cases amassed with
      | nothing =>
          rw [List.length_nil, Nat.zero_add] at large
          exact addBody_overflows homeless.1 nonempty (Nat.not_lt.1 large) homeless.2
      | something filled holds place =>
          rw [bodyVerdict, if_neg filled, if_neg (by omega), if_pos homeless] at sound
          cases sound
    · rw [if_neg homeless]
      have placed : request.body = none → limits.maxContentLength + 1 < Bytes.wordBound := by
        intro absent
        cases amassed with
        | nothing =>
            have small : ¬ Bytes.wordBound ≤ limits.maxContentLength + 1 :=
              fun bound => homeless ⟨absent, bound⟩
            omega
        | something filled holds place => cases absent
      obtain ⟨body, added, holding, place⟩ :=
        addBody_stores holds word (Nat.not_lt.1 large) nonempty placed
      refine ⟨by rw [added]; rfl, fun _ => ⟨_, added, ?_⟩⟩
      cases amassed with
      | nothing =>
          refine .something some_data holding ?_
          rw [place, length]
      | something filled holds earlier =>
          refine .something some_data holding ?_
          rw [place, length, Option.any_some, earlier, Bool.or_assoc, ← Bool.decide_or]
          congr 2
          exact propext ⟨fun either => by omega, fun beyond => .inr beyond⟩

/-- **What becomes of a body depends on all of it**, however it was cut. -/
theorem Amassed.deliver {data : Bytes} (amassed : Amassed limits base data request)
    (start : Holds limits [] base.body) (fragments : List Bytes)
    (word : data.length + fragments.flatten.length < Bytes.wordBound)
    (sound : bodyVerdict limits base data = none) (queue : RequestQueue) :
    (EmbeddedHttp.deliver (listener limits) (fragments.map .body) (queue.push request)).1 =
        bodyVerdict limits base (data ++ fragments.flatten) ∧
      (bodyVerdict limits base (data ++ fragments.flatten) = none →
        ∃ next, EmbeddedHttp.deliver (listener limits) (fragments.map .body)
            (queue.push request) = (none, queue.push next) ∧
          Amassed limits base (data ++ fragments.flatten) next) := by
  induction fragments generalizing data request with
  | nil =>
      rw [List.flatten_nil, List.append_nil]
      exact ⟨sound.symm, fun _ => ⟨request, rfl, amassed⟩⟩
  | cons first rest ih =>
      rw [List.flatten_cons, List.length_append] at word
      rw [List.flatten_cons, List.map_cons, ← List.append_assoc]
      by_cases empty : first = []
      · subst empty
        rw [List.append_nil]
        exact ih amassed (by simpa using word) sound
      · have some_octets : first.isEmpty = false := List.isEmpty_eq_false_iff.2 empty
        obtain ⟨judged, stores⟩ := amassed.add start empty (by omega) sound
        simp only [EmbeddedHttp.deliver, listener, some_octets, Bool.false_eq_true, if_false,
          changeLast_push]
        have length : (data ++ first).length = data.length + first.length := List.length_append
        cases verdict : bodyVerdict limits base (data ++ first) with
        | none =>
            obtain ⟨middle, added, still⟩ := stores verdict
            rw [added]
            exact ih still (by omega) verdict
        | some refusal =>
            rw [judged, verdict, bodyVerdict_append verdict _ (by omega)]
            exact ⟨rfl, fun sound => by cases sound⟩

/-- Two bodies of which the same came are kept in the same way. -/
theorem Amassed.alike {data : Bytes} {one other : Request}
    (first : Amassed limits { base with draft := draft } data one)
    (second : Amassed limits base data other) : one.Alike other := by
  cases first with
  | nothing =>
      cases second with
      | nothing => exact ⟨rfl, rfl, rfl⟩
      | something nonempty => exact absurd rfl nonempty
  | something nonempty holds place =>
      cases second with
      | nothing => exact absurd rfl nonempty
      | something _ holding placed =>
          constructor
          · rfl
          · exact congrArg some (holds.1.trans holding.1.symm)
          · exact congrArg some (place.trans placed.symm)

/-- What the head said is still said. -/
theorem Amassed.says {data : Bytes} (amassed : Amassed limits base data request) :
    request.target = base.target ∧ request.path = base.path ∧ request.query = base.query ∧
      request.headers = base.headers := by
  cases amassed with
  | nothing => exact ⟨rfl, rfl, rfl, rfl⟩
  | something => exact ⟨rfl, rfl, rfl, rfl⟩

theorem Amassed.content {data : Bytes} (amassed : Amassed limits base data request)
    (start : Holds limits [] base.body) : request.body.elim [] Body.content = data := by
  have holds := amassed.holds start
  cases place : request.body with
  | none =>
      rw [place] at holds
      exact Eq.symm holds
  | some body =>
      rw [place] at holds
      exact holds.1

end Assembly

/-! ## Whole messages -/

namespace CutMessage

open Assembly

/-- What is told of the message after its head is gathered: refused as the head is, or else as
the body is. -/
def Comes (message : CutMessage) (limits : Limits) (queue : RequestQueue) (settled : Change)
    (told : Option Refusal × RequestQueue) : Prop :=
  match settled with
  | (some refusal, _) => told.1 = some refusal
  | (none, base) =>
      told.1 = bodyVerdict limits base message.body.flatten ∧
        (told.1 = none → ∃ next, told.2 = queue.push next ∧
          Amassed limits base message.body.flatten next)

/-- **What comes of a message depends on its items**, and on whether it is too large. -/
theorem deliver_events (message : CutMessage) (limits : Limits) (queue : RequestQueue) :
    (message.TooLarge ∧
      (deliver (listener limits) message.events queue).1 = some (.status .badRequest)) ∨
      ¬ message.TooLarge ∧ ∃ draft : Draft, draft.target.data = message.target.flatten ∧
        message.Comes limits queue
          (settle limits message.facts (filed (message.fields.map CutField.field) draft))
          (deliver (listener limits) message.events queue) := by
  unfold events
  rcases message.deliver_gathering limits queue with
    ⟨large, refused | ⟨request, gathered, stored⟩⟩ |
      ⟨fits, request, draft, gathered, stored, target⟩
  · exact .inl ⟨large, deliver_append_refused refused _⟩
  · refine .inl ⟨large, ?_⟩
    have completed : completeHead limits message.facts request = refuse .badRequest request := by
      rw [completeHead_settle, stored]
      rfl
    rw [Parser.deliver_append, gathered]
    simp only [deliver, listener, changeLast_push, completed, refuse]
  · refine .inr ⟨fits, draft, target, ?_⟩
    have completed : completeHead limits message.facts request =
        settle limits message.facts (filed (message.fields.map CutField.field) draft) := by
      rw [completeHead_settle, stored]
      rfl
    rw [Parser.deliver_append, gathered]
    simp only [deliver, listener, changeLast_push, completed]
    rcases settling : settle limits message.facts
      (filed (message.fields.map CutField.field) draft) with ⟨_ | refusal, base⟩
    · have start : Holds limits [] base.body := (settle_describes settling rfl).body
      obtain ⟨judged, stores⟩ := Amassed.nothing.deliver start message.body
        (by simpa using message.countable) rfl queue
      rw [List.nil_append] at judged stores
      refine ⟨judged, fun sound => ?_⟩
      obtain ⟨next, told, amassed⟩ := stores (judged.symm.trans sound)
      exact ⟨next, congrArg Prod.snd told, amassed⟩
    · rfl

/-- The message is refused for its size: a buffer does not take all of a fragment, or there is no
room for one more field. -/
def RefusedForSize (message : CutMessage) (limits : Limits) (queue : RequestQueue) : Prop :=
  let told := deliver (listener limits) message.gathering queue
  told.1 ≠ none ∨ ∃ request, told.2.items.getLast? = some request ∧ (storeField request).1 ≠ none

/-- The request says what the message says. -/
structure Built (message : CutMessage) (request : Request) : Prop where
  target : request.target = Utf8.decodeLossy message.target.flatten
  path : request.path = Percent.decode (Target.split request.target).1
  query : request.query = (Target.split request.target).2
  headers : request.headers = texts (message.fields.map CutField.field)
  body : request.body.elim [] Body.content = message.body.flatten

theorem refusedForSize_iff (message : CutMessage) (limits : Limits) (queue : RequestQueue) :
    message.RefusedForSize limits queue ↔ message.TooLarge := by
  unfold RefusedForSize
  simp only
  rcases message.deliver_gathering limits queue with
    ⟨large, refused | ⟨request, gathered, stored⟩⟩ | ⟨fits, request, draft, gathered, stored, -⟩
  · rw [refused]
    exact ⟨fun _ => large, fun _ => .inl nofun⟩
  · rw [gathered]
    refine ⟨fun _ => large, fun _ => .inr ⟨request, queue.getLast?_push request, ?_⟩⟩
    rw [stored]
    nofun
  · rw [gathered]
    refine ⟨?_, fun large => absurd large fits⟩
    rintro (refused | ⟨last, isLast, refused⟩)
    · exact absurd rfl refused
    · rw [RequestQueue.getLast?_push] at isLast
      cases isLast
      rw [stored] at refused
      exact absurd rfl refused

/-- **Requests do not show how their messages were cut.**  A message in fragments is taken, or
refused with the same status, as the message in one piece; if it is taken, it makes the same
request, which says what the message says.  It is refused for its size exactly when its target,
a name, a value, or the number of its fields exceeds its limit. -/
theorem assembled_whole (message : CutMessage) (limits : Limits) (queue : RequestQueue) :
    let cut := deliver (listener limits) message.events queue
    let whole := deliver (listener limits) message.whole.events queue
    cut.1 = whole.1 ∧
      (cut.1 = none → ∃ one other, cut.2 = queue.push one ∧ whole.2 = queue.push other ∧
        one.Alike other ∧ message.Built one) ∧
      (message.RefusedForSize limits queue ↔ message.TooLarge) ∧
      (message.TooLarge → cut.1 = some (.status .badRequest)) := by
  intro cut whole
  have size := message.refusedForSize_iff limits queue
  have fields : message.whole.fields.map CutField.field = message.fields.map CutField.field := by
    simp [CutMessage.whole, CutField.field_whole]
  have target : message.whole.target.flatten = message.target.flatten := by
    simp [CutMessage.whole]
  have body : message.whole.body.flatten = message.body.flatten := by
    simp [CutMessage.whole]
  rcases message.deliver_events limits queue with ⟨large, refused⟩ | ⟨fits, draft, aimed, comes⟩
  · have wholeRefused : whole.1 = some (.status .badRequest) := by
      rcases message.whole.deliver_events limits queue with ⟨-, refused⟩ | ⟨fits, -⟩
      · exact refused
      · exact absurd (message.tooLarge_whole.2 large) fits
    refine ⟨refused.trans wholeRefused.symm, fun sound => ?_, size, fun _ => refused⟩
    cases refused.symm.trans sound
  · rcases message.whole.deliver_events limits queue with
      ⟨large, -⟩ | ⟨-, other, sameAim, comesWhole⟩
    · exact absurd (message.tooLarge_whole.1 large) fits
    · rw [fields] at comesWhole
      have same : settle limits message.facts (filed (message.fields.map CutField.field) draft) =
          redraft draft
            (settle limits message.facts (filed (message.fields.map CutField.field) other)) :=
        settle_filed (aimed.trans (target.symm.trans sameAim.symm))
      rw [same] at comes
      have facts : message.whole.facts = message.facts := rfl
      rw [facts] at comesWhole
      rcases settling : settle limits message.facts
        (filed (message.fields.map CutField.field) other) with ⟨_ | refusal, base⟩
      · rw [settling] at comes comesWhole
        obtain ⟨judged, stores⟩ := comes
        obtain ⟨judgedWhole, storesWhole⟩ := comesWhole
        rw [body] at judgedWhole storesWhole
        have verdict : cut.1 = whole.1 := judged.trans judgedWhole.symm
        refine ⟨verdict, fun sound => ?_, size, fun large => absurd large fits⟩
        obtain ⟨one, pushed, amassed⟩ := stores sound
        obtain ⟨another, pushedWhole, amassedWhole⟩ := storesWhole (verdict.symm.trans sound)
        refine ⟨one, another, pushed, pushedWhole, amassed.alike amassedWhole, ?_⟩
        have described := settle_describes settling rfl
        obtain ⟨aim, path, query, headers⟩ := amassed.says
        constructor
        · rw [aim, ← target, ← sameAim]
          exact described.target
        · rw [path, aim]
          exact described.path
        · rw [query, aim]
          exact described.query
        · rw [headers]
          exact described.headers
        · exact amassed.content described.body
      · rw [settling] at comes comesWhole
        refine ⟨Eq.trans comes (Eq.symm comesWhole), fun sound => ?_, size,
          fun large => absurd large fits⟩
        cases Eq.trans (Eq.symm comes) sound

/-- Two fields next to each other, the first one cut in its name and its value. -/
example :
    let message : CutMessage :=
      { target := [Bytes.ofAscii "/", [], Bytes.ofAscii "a"]
        fields :=
          [⟨[Bytes.ofAscii "Ho", Bytes.ofAscii "st"], [[], Bytes.ofAscii "x"], nofun, nofun⟩,
            ⟨[Bytes.ofAscii "B"], [[]], nofun, nofun⟩]
        facts := ⟨Bytes.ofAscii "GET", .http11, .none, false⟩
        body := []
        countable := by decide }
    (deliver (listener ⟨10, 10, true⟩) message.events .empty).2.items.map
      (fun request => (request.target, request.headers)) =
        [("/a", [("Host", "x"), ("B", "")])] := by
  decide +kernel

end CutMessage

end EmbeddedHttp
