/-
# EmbeddedHttp.Proofs.Message.FieldReading -- what the fields of a head announce

The notes that a reader takes of the fields depend on the values of four names only,
gathered from anywhere in the head (`announceFields_eq`): the lengths have to agree,
the last transfer coding decides, an upgrade needs two fields.  So a written head
announces the framing that it was written with (`announce_rawHead`).
-/
import EmbeddedHttp.Proofs.Message.HeadReading

namespace EmbeddedHttp

set_option autoImplicit false

/-! ## Numerals -/

namespace Bytes

theorem trimFront_of_head {s : Bytes} (front : ∀ b, s.head? = some b → isBlank b = false) :
    trimFront s = s := by
  cases s with
  | nil => rfl
  | cons b rest => simp [trimFront, front b rfl]

theorem not_isBlank_of_isDigit {b : UInt8} (digit : isDigit b = true) : isBlank b = false := by
  rw [← Bool.not_eq_true]
  intro blank
  simp only [isBlank, Bool.or_eq_true, beq_iff_eq, or_assoc] at blank
  rcases blank with rfl | rfl | rfl | rfl | rfl <;> revert digit <;> decide

theorem trimBlanks_of_digits {s : Bytes} (digits : ∀ b ∈ s, isDigit b = true) :
    trimBlanks s = s := by
  have front : trimFront s = s :=
    trimFront_of_head fun b first => not_isBlank_of_isDigit (digits b (List.mem_of_head? first))
  have back : trimFront s.reverse = s.reverse :=
    trimFront_of_head fun b first =>
      not_isBlank_of_isDigit (digits b (List.mem_reverse.1 (List.mem_of_head? first)))
  rw [trimBlanks, front, back, List.reverse_reverse]

theorem not_sameIgnoringCase_of_same {s first : Bytes} (second : Bytes)
    (apart : first.map lower ≠ second.map lower) (same : sameIgnoringCase s first = true) :
    sameIgnoringCase s second = false := by
  simp only [sameIgnoringCase, beq_iff_eq] at same
  simp only [sameIgnoringCase, same, beq_eq_false_iff_ne]
  exact apart

end Bytes

namespace Head

/-- A numeral is read as the number that it denotes. -/
theorem contentLength?_of_numeral {value : Bytes} {n : Nat}
    (numeral : Bytes.DecimalNumeral value n) (word : n < Bytes.wordBound) :
    contentLength? value = some n := by
  have nonempty : value.isEmpty = false := by
    rw [List.isEmpty_eq_false_iff]
    exact numeral.nonempty
  have digits : value.all Bytes.isDigit = true := List.all_eq_true.2 numeral.digit
  simp only [contentLength?, Bytes.trimBlanks_of_digits numeral.digit, nonempty, digits,
    numeral.value, word, if_true]
  rfl

/-! ## Notes on the fields -/

/-- What is announced for the fields. -/
def fieldEvents (fields : List (Bytes × Bytes)) : List Event :=
  fields.flatMap fun field => [.fieldName field.1, .fieldValue field.2]

theorem fieldEvents_cons (field : Bytes × Bytes) (rest : List (Bytes × Bytes)) :
    fieldEvents (field :: rest) =
      .fieldName field.1 :: .fieldValue field.2 :: fieldEvents rest := rfl

theorem valuesOf_cons_same {name : String} {field : Bytes × Bytes}
    (same : Bytes.sameIgnoringCase field.1 (Bytes.ofAscii name) = true)
    (rest : List (Bytes × Bytes)) :
    valuesOf name (field :: rest) = field.2 :: valuesOf name rest := by
  simp [valuesOf, same]

theorem valuesOf_cons_other {name : String} {field : Bytes × Bytes}
    (other : Bytes.sameIgnoringCase field.1 (Bytes.ofAscii name) = false)
    (rest : List (Bytes × Bytes)) :
    valuesOf name (field :: rest) = valuesOf name rest := by
  simp [valuesOf, other]

namespace Notes

/-- Does the value name the chunked coding last? -/
def endsChunked (value : Bytes) : Bool :=
  Bytes.sameIgnoringCase (Bytes.lastElement value) (Bytes.ofAscii "chunked")

/-- Does the value ask for an upgrade? -/
def asksUpgrade (value : Bytes) : Bool :=
  Bytes.hasToken value (Bytes.ofAscii "upgrade")

/-- The notes with those on further fields, all of whose lengths are `n`. -/
def passing (notes : Notes) (n : Nat) (fields : List (Bytes × Bytes)) : Notes :=
  { length := if valuesOf "content-length" fields = [] then notes.length else some n
    chunked :=
      ((valuesOf "transfer-encoding" fields).getLast?.map endsChunked).getD notes.chunked
    upgradeField := notes.upgradeField || !(valuesOf "upgrade" fields).isEmpty
    connectionUpgrade :=
      notes.connectionUpgrade || (valuesOf "connection" fields).any asksUpgrade }

@[simp] theorem passing_nil (notes : Notes) (n : Nat) : notes.passing n [] = notes := by
  simp [passing, valuesOf]

/-- One field is taken note of, and then the others. -/
theorem passing_cons {notes : Notes} {n : Nat} (field : Bytes × Bytes) (rest : List (Bytes × Bytes))
    (length : ∀ value ∈ valuesOf "content-length" [field], contentLength? value = some n)
    (agree : ∀ m, notes.length = some m → m = n) :
    ∃ next, notes.add field.1 field.2 = .ok next ∧ (∀ m, next.length = some m → m = n) ∧
      next.passing n rest = notes.passing n (field :: rest) := by
  have coding : ∀ other : String, (Bytes.ofAscii "content-length").map Bytes.lower ≠
      (Bytes.ofAscii other).map Bytes.lower →
      Bytes.sameIgnoringCase field.1 (Bytes.ofAscii "content-length") = true →
      valuesOf other (field :: rest) = valuesOf other rest := fun other apart same =>
    valuesOf_cons_other (Bytes.not_sameIgnoringCase_of_same _ apart same) rest
  -- the cases follow `add`: the first name that fits decides, and excludes the others
  by_cases isLength : Bytes.sameIgnoringCase field.1 (Bytes.ofAscii "content-length") = true
  · have denotes := length field.2 (by simp [valuesOf_cons_same isLength])
    have noConflict : notes.length.any (· != n) = false := by
      cases known : notes.length with
      | none => rfl
      | some m => simp [agree m known]
    refine ⟨{ notes with length := some n }, ?_, ?_, ?_⟩
    · simp [add, isLength, denotes, noConflict]
    · intro m same
      exact (Option.some.inj same).symm
    · simp only [passing, valuesOf_cons_same isLength, coding "transfer-encoding" (by decide) isLength,
        coding "upgrade" (by decide) isLength, coding "connection" (by decide) isLength]
      simp
  rw [Bool.not_eq_true] at isLength
  by_cases isCoding : Bytes.sameIgnoringCase field.1 (Bytes.ofAscii "transfer-encoding") = true
  · have notUpgrade := Bytes.not_sameIgnoringCase_of_same
      (Bytes.ofAscii "upgrade") (by decide) isCoding
    have notConnection := Bytes.not_sameIgnoringCase_of_same
      (Bytes.ofAscii "connection") (by decide) isCoding
    refine ⟨{ notes with chunked := endsChunked field.2 }, ?_, agree, ?_⟩
    · simp [add, isLength, isCoding, endsChunked]
    · simp only [passing, valuesOf_cons_same isCoding, valuesOf_cons_other isLength,
        valuesOf_cons_other notUpgrade, valuesOf_cons_other notConnection]
      cases valuesOf "transfer-encoding" rest with
      | nil => rfl
      | cons value others => simp [List.getLast?_cons]
  rw [Bool.not_eq_true] at isCoding
  by_cases isUpgrade : Bytes.sameIgnoringCase field.1 (Bytes.ofAscii "upgrade") = true
  · have notConnection := Bytes.not_sameIgnoringCase_of_same
      (Bytes.ofAscii "connection") (by decide) isUpgrade
    refine ⟨{ notes with upgradeField := true }, ?_, agree, ?_⟩
    · simp [add, isLength, isCoding, isUpgrade]
    · simp only [passing, valuesOf_cons_same isUpgrade, valuesOf_cons_other isLength,
        valuesOf_cons_other isCoding, valuesOf_cons_other notConnection]
      simp
  rw [Bool.not_eq_true] at isUpgrade
  by_cases isConnection : Bytes.sameIgnoringCase field.1 (Bytes.ofAscii "connection") = true
  · refine ⟨{ notes with
      connectionUpgrade := notes.connectionUpgrade || asksUpgrade field.2 }, ?_, agree, ?_⟩
    · simp [add, isLength, isCoding, isUpgrade, isConnection, asksUpgrade]
    · simp only [passing, valuesOf_cons_same isConnection, valuesOf_cons_other isLength,
        valuesOf_cons_other isCoding, valuesOf_cons_other isUpgrade, List.any_cons,
        Bool.or_assoc]
  rw [Bool.not_eq_true] at isConnection
  refine ⟨notes, ?_, agree, ?_⟩
  · simp [add, isLength, isCoding, isUpgrade, isConnection]
  · simp only [passing, valuesOf_cons_other isLength, valuesOf_cons_other isCoding,
      valuesOf_cons_other isUpgrade, valuesOf_cons_other isConnection]

end Notes

theorem valuesOf_append (name : String) (first second : List (Bytes × Bytes)) :
    valuesOf name (first ++ second) = valuesOf name first ++ valuesOf name second := by
  simp [valuesOf]

/-- **Fields whose lengths agree are all announced, and the notes follow from the values
of the names that matter.** -/
theorem announceFields_eq (notes : Notes) {n : Nat} {fields : List (Bytes × Bytes)}
    (lengths : ∀ value ∈ valuesOf "content-length" fields, contentLength? value = some n)
    (agree : ∀ m, notes.length = some m → m = n) :
    announceFields notes fields = (fieldEvents fields, .ok (notes.passing n fields)) := by
  induction fields generalizing notes with
  | nil => simp [announceFields, fieldEvents]
  | cons field rest ih =>
      have split := valuesOf_append "content-length" [field] rest
      rw [List.singleton_append] at split
      rw [split] at lengths
      obtain ⟨next, added, stillAgree, same⟩ := Notes.passing_cons field rest
        (fun value member => lengths value (List.mem_append_left _ member)) agree
      have further := ih next (fun value member => lengths value (List.mem_append_right _ member))
        stillAgree
      simp only [announceFields, added, further, same, fieldEvents_cons]

end Head

/-! ## Written heads -/

namespace WrittenRequest

/-- What a reader announces for the head. -/
def headEvents (request : WrittenRequest) : List Event :=
  .target (Bytes.ofText request.target) :: Head.fieldEvents request.rawFields ++
    [.head request.facts]

theorem lengths_announced {limits : Limits} {request : WrittenRequest}
    (legal : request.Legal limits) (word : limits.maxContentLength < Bytes.wordBound) :
    ∀ value ∈ Head.valuesOf "content-length" request.rawFields,
      Head.contentLength? value = some request.payload.data.length := by
  intro value member
  have framed := legal.framed
  have size := legal.body_size
  cases payload : request.payload with
  | none =>
      rw [payload] at framed
      rw [framed.1] at member
      exact absurd member List.not_mem_nil
  | declared data =>
      rw [payload] at framed size
      exact Head.contentLength?_of_numeral (framed.2.2 value member) (Nat.lt_of_le_of_lt size word)
  | chunked chunks last trailers =>
      rw [payload] at framed
      rw [framed.1] at member
      exact absurd member List.not_mem_nil

theorem notes_framing {limits : Limits} {request : WrittenRequest}
    (legal : request.Legal limits) :
    (Head.Notes.none.passing request.payload.data.length request.rawFields).framing =
      request.payload.framing := by
  have framed := legal.framed
  cases payload : request.payload with
  | none =>
      rw [payload] at framed
      simp [Head.Notes.framing, Head.Notes.passing, Head.Notes.none, framed.1, framed.2,
        WrittenBody.framing]
  | declared data =>
      rw [payload] at framed
      simp [Head.Notes.framing, Head.Notes.passing, Head.Notes.none, framed.1, framed.2.1,
        WrittenBody.framing, WrittenBody.data]
  | chunked chunks last trailers =>
      rw [payload] at framed
      obtain ⟨value, isLast, isChunked⟩ := framed.2.1
      simp [Head.Notes.framing, Head.Notes.passing, Head.Notes.none, Head.Notes.endsChunked, isLast,
        isChunked, WrittenBody.framing]

theorem notes_upgrade {limits : Limits} {request : WrittenRequest} (legal : request.Legal limits)
    (n : Nat) :
    let notes := Head.Notes.none.passing n request.rawFields
    (notes.upgradeField && notes.connectionUpgrade ||
      Bytes.ofAscii request.method.name == Bytes.ofAscii "CONNECT") = false := by
  have noUpgrade := legal.noUpgrade
  have other : (Bytes.ofAscii request.method.name == Bytes.ofAscii "CONNECT") = false := by
    have served := legal.served
    revert served
    cases request.method <;> decide
  rw [← Bool.not_eq_true]
  intro upgrade
  simp only [Head.Notes.passing, Head.Notes.none, other, Bool.false_or, Bool.or_false,
    Bool.and_eq_true, Bool.not_eq_true', List.isEmpty_eq_false_iff, List.any_eq_true] at upgrade
  exact noUpgrade upgrade

/-- **A written head announces itself with the framing that it was written with.** -/
theorem announce_rawHead {limits : Limits} {request : WrittenRequest}
    (legal : request.Legal limits) (word : limits.maxContentLength < Bytes.wordBound) :
    request.rawHead.announce = (request.headEvents, .ok request.facts) := by
  have fields := Head.announceFields_eq Head.Notes.none
    (lengths_announced legal word) (by intro m absent; simp [Head.Notes.none] at absent)
  have upgrade := notes_upgrade legal request.payload.data.length
  simp only at upgrade
  simp only [Head.Raw.announce, rawHead, fields, notes_framing legal, upgrade, headEvents, facts]

end WrittenRequest

end EmbeddedHttp
