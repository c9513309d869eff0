/-
# EmbeddedHttp.Proofs.Message.Codings -- the transfer codings of a head and its framing

Repeated fields of one name stand for a single list, their values joined by commas in
order.  The transfer codings of a head are the elements of that list (`codings`), and a
head that names any is framed as chunked or it is ambiguous: another party may find the
end of the body elsewhere.

The notes on a head keep one field at a time.  `announce_coded` says what comes of it
for every head with a Transfer-Encoding field: acceptance rests on the lengths alone, and
the framing is chunked exactly when the last of these fields ends in the chunked coding.
As long as that field has an element this is the last coding of the whole list; behind
one without elements, and with any other coding, the body is framed as if there were no
Transfer-Encoding at all.
-/
import EmbeddedHttp.Proofs.Message.FieldReading

namespace EmbeddedHttp

set_option autoImplicit false

/-! ## Comma lists -/

namespace Bytes

theorem pieces_ne_nil (s : Bytes) : pieces s ≠ [] := by
  cases s with
  | nil => exact List.cons_ne_nil _ _
  | cons b rest =>
      unfold pieces
      split
      · exact List.cons_ne_nil _ _
      · split <;> exact List.cons_ne_nil _ _

/-- A comma ends one piece and begins another. -/
theorem pieces_append_comma (first second : Bytes) :
    pieces (first ++ 44 :: second) = pieces first ++ pieces second := by
  induction first with
  | nil => rfl
  | cons b rest ih =>
      by_cases comma : b = 44
      · subst comma
        simp [pieces, ih]
      · obtain ⟨piece, others, cut⟩ := List.exists_cons_of_ne_nil (pieces_ne_nil rest)
        simp [pieces, comma, ih, cut]

theorem elements_append_comma (first second : Bytes) :
    elements (first ++ 44 :: second) = elements first ++ elements second := by
  simp only [elements, pieces_append_comma, List.map_append, List.filter_append]

/-- Values joined by commas have the elements of all of them. -/
theorem elements_join (values : List Bytes) :
    elements ([44].intercalate values) = values.flatMap elements := by
  induction values with
  | nil => rfl
  | cons value others ih =>
      cases others with
      | nil => simp
      | cons next rest =>
          rw [List.intercalate_cons_cons, List.append_assoc, List.singleton_append,
            elements_append_comma, ih]
          rfl

end Bytes

namespace Head

/-- The values of the fields with a given name as one comma list. -/
def joinedValues (name : String) (fields : List (Bytes × Bytes)) : Bytes :=
  [44].intercalate (valuesOf name fields)

/-- The transfer codings that the fields name, in order. -/
def codings (fields : List (Bytes × Bytes)) : List Bytes :=
  Bytes.elements (joinedValues "transfer-encoding" fields)

/-- Is the last of the transfer codings the chunked one? -/
def lastCodingChunked (fields : List (Bytes × Bytes)) : Bool :=
  (codings fields).getLast?.any fun coding =>
    Bytes.sameIgnoringCase coding (Bytes.ofAscii "chunked")

/-- Every Content-Length field denotes this number. -/
def LengthsDenote (fields : List (Bytes × Bytes)) (n : Nat) : Prop :=
  ∀ value ∈ valuesOf "content-length" fields, contentLength? value = some n

/-- The framing without regard to any transfer coding. -/
def FramedByLength (fields : List (Bytes × Bytes)) (framing : Framing) : Prop :=
  (valuesOf "content-length" fields = [] ∧ framing = .none) ∨
    ∃ n, valuesOf "content-length" fields ≠ [] ∧ LengthsDenote fields n ∧ framing = .length n

/-! ## The last element of the list -/

theorem Notes.elements_of_endsChunked {value : Bytes} (ends : endsChunked value = true) :
    Bytes.elements value ≠ [] := by
  intro empty
  rw [endsChunked, Bytes.lastElement, empty] at ends
  revert ends
  decide

theorem Notes.endsChunked_eq {value : Bytes} (some_element : Bytes.elements value ≠ []) :
    endsChunked value = (Bytes.elements value).getLast?.any fun coding =>
      Bytes.sameIgnoringCase coding (Bytes.ofAscii "chunked") := by
  rw [endsChunked, Bytes.lastElement, List.getLast?_eq_some_getLast some_element]
  rfl

/-- A last field with an element in it brings the last coding of the list. -/
theorem lastCodingChunked_eq {fields : List (Bytes × Bytes)} {value : Bytes}
    (last : (valuesOf "transfer-encoding" fields).getLast? = some value)
    (some_element : Bytes.elements value ≠ []) :
    lastCodingChunked fields = Notes.endsChunked value := by
  obtain ⟨front, values⟩ := List.getLast?_eq_some_iff.1 last
  have within : (codings fields).getLast? = (Bytes.elements value).getLast? := by
    rw [codings, joinedValues, values, Bytes.elements_join, List.flatMap_append,
      List.flatMap_singleton, List.getLast?_append, List.getLast?_eq_some_getLast some_element]
    rfl
  rw [lastCodingChunked, within, Notes.endsChunked_eq some_element]

/-! ## Which heads are accepted -/

/-- A field that is taken note of leaves the lengths in agreement. -/
theorem Notes.add_agrees {notes next : Notes} {name value : Bytes} {n : Nat}
    (added : notes.add name value = .ok next) (agree : ∀ m, next.length = some m → m = n) :
    LengthsDenote [(name, value)] n ∧ ∀ m, notes.length = some m → m = n := by
  by_cases isLength : Bytes.sameIgnoringCase name (Bytes.ofAscii "content-length") = true
  · have values : valuesOf "content-length" [(name, value)] = [value] :=
      @valuesOf_cons_same _ (name, value) isLength []
    simp only [add, isLength, if_true] at added
    cases denotes : contentLength? value with
    | none =>
        rw [denotes] at added
        cases added
    | some k =>
        simp only [denotes] at added
        split at added
        · cases added
        · rename_i noConflict
          cases added
          have same : k = n := agree k rfl
          subst same
          constructor
          · intro other member
            rw [values, List.mem_singleton] at member
            rw [member, denotes]
          · intro m known
            simpa [known] using noConflict
  · rw [Bool.not_eq_true] at isLength
    have values : valuesOf "content-length" [(name, value)] = [] :=
      @valuesOf_cons_other _ (name, value) isLength []
    have unchanged : next.length = notes.length := by
      simp only [add, isLength, Bool.false_eq_true, if_false] at added
      repeat' split at added
      all_goals
        cases added
        rfl
    constructor
    · intro other member
      rw [values] at member
      cases member
    · intro m known
      exact agree m (unchanged.trans known)

/-- Fields that are all taken note of have lengths that agree. -/
theorem announceFields_agrees {notes final : Notes} {fields : List (Bytes × Bytes)}
    (accepted : (announceFields notes fields).2 = .ok final) :
    ∃ n, LengthsDenote fields n ∧ ∀ m, notes.length = some m → m = n := by
  induction fields generalizing notes with
  | nil =>
      refine ⟨notes.length.getD 0, ?_, ?_⟩
      · intro value member
        cases member
      · intro m known
        rw [known]
        rfl
  | cons field rest ih =>
      unfold announceFields at accepted
      cases added : notes.add field.1 field.2 with
      | error cause =>
          rw [added] at accepted
          cases accepted
      | ok next =>
          rw [added] at accepted
          obtain ⟨n, restDenotes, agree⟩ := ih accepted
          obtain ⟨fieldDenotes, before⟩ := Notes.add_agrees added agree
          refine ⟨n, ?_, before⟩
          intro value member
          have split := valuesOf_append "content-length" [field] rest
          rw [List.singleton_append] at split
          rw [split] at member
          rcases List.mem_append.1 member with first | later
          · exact fieldDenotes value first
          · exact restDenotes value later

/-- Fields with lengths that agree, and none noted before, are taken note of. -/
theorem announceFields_accepts {n : Nat} {fields : List (Bytes × Bytes)}
    (denote : LengthsDenote fields n) :
    (announceFields Notes.none fields).2 = .ok (Notes.none.passing n fields) := by
  rw [announceFields_eq Notes.none denote]
  intro m absent
  cases absent

/-- The facts of an accepted head are those of its notes. -/
theorem Raw.announce_framing {raw : Raw} {facts : HeadFacts}
    (accepted : raw.announce.2 = .ok facts) :
    ∃ n, LengthsDenote raw.fields n ∧
      facts.framing = (Notes.none.passing n raw.fields).framing := by
  simp only [announce] at accepted
  cases noted : (announceFields Notes.none raw.fields).2 with
  | error cause =>
      simp only [noted] at accepted
      cases accepted
  | ok final =>
      simp only [noted, Except.ok.injEq] at accepted
      obtain ⟨n, denote, -⟩ := announceFields_agrees noted
      rw [announceFields_accepts denote] at noted
      cases noted
      exact ⟨n, denote, accepted ▸ rfl⟩

/-- **A head is accepted when its lengths agree**, whatever its other fields say. -/
theorem Raw.announce_ok_iff (raw : Raw) :
    (∃ facts, raw.announce.2 = .ok facts) ↔ ∃ n, LengthsDenote raw.fields n := by
  constructor
  · rintro ⟨facts, accepted⟩
    obtain ⟨n, denote, -⟩ := announce_framing accepted
    exact ⟨n, denote⟩
  · rintro ⟨n, denote⟩
    simp only [announce, announceFields_accepts denote, Except.ok.injEq, exists_eq']

/-! ## Framing behind codings -/

theorem Notes.passing_framedByLength {fields : List (Bytes × Bytes)} {n : Nat}
    (denote : LengthsDenote fields n)
    (unchunked : (none.passing n fields).chunked = false) :
    FramedByLength fields (none.passing n fields).framing := by
  unfold framing
  rw [unchunked]
  by_cases absent : valuesOf "content-length" fields = []
  · exact .inl ⟨absent, by simp [passing, none, absent]⟩
  · exact .inr ⟨n, absent, denote, by simp [passing, absent]⟩

theorem FramedByLength.ne_chunked {fields : List (Bytes × Bytes)} {framing : Framing}
    (framed : FramedByLength fields framing) : framing ≠ .chunked := by
  rcases framed with ⟨-, rfl⟩ | ⟨n, -, -, rfl⟩ <;> intro absurdity <;> cases absurdity

/-- **What a Transfer-Encoding field does to a head.**  It never gets the head refused.
The framing is chunked with chunked as the last coding exactly when the last field ends in
it; if not, the body is framed by its length.  The last field decides as the whole list
would if it has an element. -/
theorem Raw.announce_coded {raw : Raw} {value : Bytes}
    (coded : (valuesOf "transfer-encoding" raw.fields).getLast? = some value) :
    ((∃ facts, raw.announce.2 = .ok facts) ↔ ∃ n, LengthsDenote raw.fields n) ∧
      (∀ facts, raw.announce.2 = .ok facts →
        (facts.framing = .chunked ∧ lastCodingChunked raw.fields = true ↔
            Notes.endsChunked value = true) ∧
          (FramedByLength raw.fields facts.framing ↔ Notes.endsChunked value = false)) ∧
      (Bytes.elements value ≠ [] → lastCodingChunked raw.fields = Notes.endsChunked value) := by
  refine ⟨raw.announce_ok_iff, ?_, lastCodingChunked_eq coded⟩
  intro facts accepted
  obtain ⟨n, denote, framed⟩ := announce_framing accepted
  have decided : (Notes.none.passing n raw.fields).chunked = Notes.endsChunked value := by
    simp [Notes.passing, coded]
  cases ends : Notes.endsChunked value with
  | true =>
      have chunked : facts.framing = .chunked := by
        rw [framed, Notes.framing, decided, ends, if_pos rfl]
      have listed : lastCodingChunked raw.fields = true :=
        (lastCodingChunked_eq coded (Notes.elements_of_endsChunked ends)).trans ends
      refine ⟨iff_of_true ⟨chunked, listed⟩ rfl, iff_of_false ?_ Bool.noConfusion⟩
      intro byLength
      exact byLength.ne_chunked chunked
  | false =>
      have byLength : FramedByLength raw.fields facts.framing := by
        rw [framed]
        exact Notes.passing_framedByLength denote (decided.trans ends)
      refine ⟨iff_of_false ?_ Bool.noConfusion, iff_of_true byLength rfl⟩
      rintro ⟨chunked, -⟩
      exact byLength.ne_chunked chunked

/-- A head whose only coding is chunked, with a further field that names none. -/
def hidingChunked : Raw :=
  ⟨Bytes.ofAscii "GET", Bytes.ofAscii "/a", .http11,
    [(Bytes.ofAscii "Transfer-Encoding", Bytes.ofAscii "chunked"),
      (Bytes.ofAscii "Transfer-Encoding", [])]⟩

/-- It is accepted with chunked as its last coding, and framed as having no body. -/
theorem hidingChunked_ignored :
    lastCodingChunked hidingChunked.fields = true ∧
      ∃ facts, hidingChunked.announce.2 = .ok facts ∧ facts.framing = .none ∧
        ¬ (facts.framing = .chunked ∧ lastCodingChunked hidingChunked.fields = true) := by
  have coded : (valuesOf "transfer-encoding" hidingChunked.fields).getLast? = some [] := by decide
  obtain ⟨-, framings, -⟩ := Raw.announce_coded coded
  have accepted : hidingChunked.announce.2 =
      .ok ⟨Bytes.ofAscii "GET", .http11, .none, false⟩ := by rfl
  refine ⟨by decide, _, accepted, rfl, ?_⟩
  rw [(framings _ accepted).1]
  decide

end Head

end EmbeddedHttp
