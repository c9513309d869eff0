/-
# EmbeddedHttp.Proofs.Response.OneFraming -- when a head says once how its body is framed

The length that an application declares is parsed, and the framing of the response follows
what was parsed.  The header itself goes out as it was given, and so does a transfer coding
of the application's, which nothing looks at.  So a head block frames its body in one way
exactly when the application declared at most one length, in plain digits, and no coding
(`StartResponse.call_framing`).  Every other head that is accepted is ambiguous: two lengths
go out where the last one counts, or a second coding, or one that no chunks follow, or a
length that the reader of requests would refuse.
-/
import EmbeddedHttp.Proofs.Response.HeadLines

namespace EmbeddedHttp

set_option autoImplicit false

/-! ## Statement -/

/-- The length of the body that a head is written for: the declared one before the
server's. -/
def announced? (head : ResponseHead) (length : BodyLength) : Option Nat :=
  head.contentLength.or (ResponseFraming.inferred? head length)

/-- Fields that frame a body in one way, which is the framing that was decided. -/
structure Unambiguous (fields : List (Bytes × Bytes)) (framing : ResponseFraming)
    (announced : Option Nat) : Prop where
  single : (Head.valuesOf "content-length" fields).length +
    (Head.valuesOf "transfer-encoding" fields).length ≤ 1
  coding : Head.valuesOf "transfer-encoding" fields ≠ [] ↔ framing.chunked = true
  length : ∀ value ∈ Head.valuesOf "content-length" fields,
    ∃ n, Head.contentLength? value = some n ∧ announced = some n

/-- Headers with at most one length, in plain digits, and without a transfer coding. -/
structure PlainlyFramed (headers : List (String × String)) : Prop where
  uncoded : ResponseHead.valuesOf "transfer-encoding" headers = []
  single : (ResponseHead.valuesOf "content-length" headers).length ≤ 1
  plain : ∀ value ∈ ResponseHead.valuesOf "content-length" headers,
    Bytes.trimBlanks (Bytes.ofText value) ≠ [] ∧
      ∀ b ∈ Bytes.trimBlanks (Bytes.ofText value), Bytes.isDigit b = true

/-- A server name and a date that bring no framing of their own in behind a line end. -/
structure HeadContext.Unframed (context : HeadContext) : Prop where
  lengths : Head.valuesOf "content-length" (Bytes.fields (Bytes.lines context.closing)) = []
  codings : Head.valuesOf "transfer-encoding" (Bytes.fields (Bytes.lines context.closing)) = []

/-- Without line ends the server's name and the date are the fields that they are meant to
be. -/
theorem HeadContext.unframed {context : HeadContext}
    (name : Bytes.cr ∉ Bytes.ofText context.serverName) (date : Bytes.cr ∉ context.date) :
    context.Unframed := by
  have lined := HeadContext.signature_lined name date
  have closing : Bytes.fields (Bytes.lines context.closing) = context.signature.map spaced := by
    rw [HeadContext.closing, lines_headerLines lined, fields_fieldLines lined]
    exact List.append_nil _
  exact ⟨by rw [closing]; rfl, by rw [closing]; rfl⟩

/-- A length that 64 bits hold. -/
def BodyLength.Word : BodyLength → Prop
  | .known n => n < Bytes.wordBound
  | .unknown => True

/-! ## Values of the fields -/

theorem Head.valuesOf_spaced (name : String) (headers : List (Bytes × Bytes)) :
    valuesOf name (headers.map spaced) = (valuesOf name headers).map (Bytes.space :: ·) := by
  simp only [valuesOf, List.filter_map, List.map_map]
  rfl

namespace ResponseHead

/-- The values that an application gave under an ASCII name, among its octets. -/
theorem valuesOf_octets {name : String} (ascii : Text.isAscii name = true)
    (headers : List (String × String)) :
    Head.valuesOf name (headers.map octets) = (valuesOf name headers).map Bytes.ofText := by
  have same : ∀ header : String × String,
      Bytes.sameIgnoringCase (octets header).1 (Bytes.ofAscii name) =
        Text.sameIgnoringCase header.1 name := by
    intro header
    rw [Bytes.ofAscii_eq_ofText ascii]
    exact Bytes.sameIgnoringCase_ofText header.1 name
  simp only [Head.valuesOf, valuesOf, List.filter_map, List.map_map, Function.comp_def, same]
  rfl

/-- The headers that frame the body are never the server's to drop. -/
theorem valuesOf_stays {name : String} (code : Nat)
    (apart : ∀ own ∈ ["server", "date", "connection"],
      name.toList.map Char.toLower ≠ own.toList.map Char.toLower)
    (headers : List (String × String)) :
    valuesOf name (headers.filter (stays code)) = valuesOf name headers := by
  rw [valuesOf, List.filter_filter, valuesOf]
  congr 1
  refine List.filter_congr fun header _ => ?_
  cases named : Text.sameIgnoringCase header.1 name with
  | false => rfl
  | true => rw [stays_of_same apart named, Bool.and_self]

theorem Built.valuesOf {status : String} {headers : List (String × String)}
    {head : ResponseHead} (built : Built status headers head) {name : String}
    (ascii : Text.isAscii name = true)
    (apart : ∀ own ∈ ["server", "date", "connection"],
      name.toList.map Char.toLower ≠ own.toList.map Char.toLower) :
    Head.valuesOf name (head.headers.map octets) =
      (ResponseHead.valuesOf name headers).map Bytes.ofText := by
  rw [valuesOf_octets ascii, built.kept, valuesOf_stays head.code apart]

end ResponseHead

theorem valuesOf_length_ownHeaders (head : ResponseHead) (length : BodyLength)
    (context : HeadContext) :
    Head.valuesOf "content-length" (ownHeaders head length context) =
      (ResponseFraming.inferred? head length).toList.map Bytes.ofNat := by
  simp only [ownHeaders, Head.valuesOf_append]
  cases ResponseFraming.inferred? head length <;>
    cases (ResponseFraming.decide head length context).chunked <;> cases head.isSwitching <;>
    rfl

theorem valuesOf_coding_ownHeaders (head : ResponseHead) (length : BodyLength)
    (context : HeadContext) :
    Head.valuesOf "transfer-encoding" (ownHeaders head length context) =
      if (ResponseFraming.decide head length context).chunked then [Bytes.ofAscii "chunked"]
      else [] := by
  simp only [ownHeaders, Head.valuesOf_append]
  cases ResponseFraming.inferred? head length <;>
    cases (ResponseFraming.decide head length context).chunked <;> cases head.isSwitching <;>
    rfl

/-! ## One length or none -/

namespace Head

/-- The space behind the colon is not part of a length. -/
theorem contentLength?_space (value : Bytes) :
    contentLength? (Bytes.space :: value) = contentLength? value := rfl

theorem digits_of_contentLength? {value : Bytes} {n : Nat} (read : contentLength? value = some n) :
    Bytes.trimBlanks value ≠ [] ∧ ∀ b ∈ Bytes.trimBlanks value, Bytes.isDigit b = true := by
  rw [contentLength?] at read
  split at read
  · cases read
  · rename_i plain
    simpa [not_or] using plain

end Head

theorem undeclared_of_inferred {head : ResponseHead} {length : BodyLength} {n : Nat}
    (inferred : ResponseFraming.inferred? head length = some n) :
    head.contentLength = none ∧ length = .known n := by
  unfold ResponseFraming.inferred? at inferred
  split at inferred
  · rename_i m undeclared
    split at inferred
    · cases inferred
    · cases inferred
      exact ⟨undeclared, rfl⟩
  · cases inferred

/-- Chunks go out only where no length does. -/
theorem unannounced_of_chunked {head : ResponseHead} {length : BodyLength} {context : HeadContext}
    (chunked : (ResponseFraming.decide head length context).chunked = true) :
    announced? head length = none := by
  simp only [ResponseFraming.decide, ResponseFraming.isUnbounded, Bool.and_eq_true,
    Option.isNone_iff_eq_none, beq_iff_eq] at chunked
  obtain ⟨⟨⟨undeclared, unknown⟩, -⟩, -⟩ := chunked
  simp [announced?, ResponseFraming.inferred?, undeclared, unknown]

/-- The values of the two names that frame a body, as the three parts of a head block
contribute them. -/
structure Parts (fields : List (Bytes × Bytes)) (headers : List (String × String))
    (head : ResponseHead) (length : BodyLength) (context : HeadContext) : Prop where
  lengths : Head.valuesOf "content-length" fields =
    (ResponseHead.valuesOf "content-length" headers).map
        (fun value => Bytes.space :: Bytes.ofText value) ++
      ((ResponseFraming.inferred? head length).toList.map
          (fun n => Bytes.space :: Bytes.ofNat n) ++
        Head.valuesOf "content-length" (Bytes.fields (Bytes.lines context.closing)))
  codings : Head.valuesOf "transfer-encoding" fields =
    (ResponseHead.valuesOf "transfer-encoding" headers).map
        (fun value => Bytes.space :: Bytes.ofText value) ++
      ((if (ResponseFraming.decide head length context).chunked then
          [Bytes.space :: Bytes.ofAscii "chunked"] else []) ++
        Head.valuesOf "transfer-encoding" (Bytes.fields (Bytes.lines context.closing)))

theorem ResponseHead.Built.parts {status : String} {headers : List (String × String)}
    {head : ResponseHead} (built : Built status headers head) (length : BodyLength)
    (context : HeadContext) :
    Parts (Bytes.headFields (assembleHead head length context).1) headers head length context where
  lengths := by
    rw [headFields_assembleHead built, Head.valuesOf_append, Head.valuesOf_append,
      Head.valuesOf_spaced, Head.valuesOf_spaced, built.valuesOf (by decide) (by decide),
      valuesOf_length_ownHeaders, List.map_map, List.map_map]
    rfl
  codings := by
    rw [headFields_assembleHead built, Head.valuesOf_append, Head.valuesOf_append,
      Head.valuesOf_spaced, Head.valuesOf_spaced, built.valuesOf (by decide) (by decide),
      valuesOf_coding_ownHeaders, List.map_map]
    cases (ResponseFraming.decide head length context).chunked <;> rfl

namespace ResponseHead.Built

variable {status : String} {headers : List (String × String)} {head : ResponseHead}
  {fields : List (Bytes × Bytes)} {length : BodyLength} {context : HeadContext}

/-- A length is declared when a header gives one, and not otherwise. -/
theorem undeclared_iff (built : Built status headers head) :
    head.contentLength = none ↔ ResponseHead.valuesOf "content-length" headers = [] := by
  rw [built.length]
  constructor
  · intro undeclared
    by_contra given
    obtain ⟨n, last⟩ := ResponseHead.last_declared built.declared given
    cases undeclared.symm.trans last
  · intro nothing
    simp [nothing]

/-- Fields that frame a body in one way hold no framing but what they need. -/
theorem plainlyFramed (built : Built status headers head)
    (parts : Parts fields headers head length context)
    (unambiguous : Unambiguous fields (ResponseFraming.decide head length context)
      (announced? head length)) :
    PlainlyFramed headers ∧ context.Unframed := by
  obtain ⟨single, coding, isLength⟩ := unambiguous
  rw [parts.lengths, parts.codings] at single
  rw [parts.codings] at coding
  rw [parts.lengths] at isLength
  simp only [List.length_append, List.length_map] at single
  have codings : ResponseHead.valuesOf "transfer-encoding" headers = [] ∧
      Head.valuesOf "transfer-encoding" (Bytes.fields (Bytes.lines context.closing)) = [] := by
    rw [← List.length_eq_zero_iff, ← List.length_eq_zero_iff]
    cases chunked : (ResponseFraming.decide head length context).chunked with
    | true =>
        simp only [chunked, if_true, List.length_singleton] at single
        omega
    | false =>
        rw [chunked] at coding
        have nothing := not_not.1 (mt coding.1 (by decide))
        have empty := congrArg List.length nothing
        simp only [Bool.false_eq_true, if_false, List.nil_append, List.length_append,
          List.length_map, List.length_nil] at empty
        omega
  have lengths :
      Head.valuesOf "content-length" (Bytes.fields (Bytes.lines context.closing)) = [] := by
    by_contra given
    obtain ⟨value, others, isFirst⟩ := List.exists_cons_of_ne_nil given
    rw [isFirst, List.length_cons] at single
    -- it stands alone, so no length was announced
    have undeclared : head.contentLength = none := by
      rw [built.undeclared_iff, ← List.length_eq_zero_iff]
      omega
    have uninferred : ResponseFraming.inferred? head length = none := by
      cases inferred : ResponseFraming.inferred? head length with
      | none => rfl
      | some n =>
          rw [inferred, Option.toList_some, List.length_singleton] at single
          omega
    obtain ⟨n, -, announced⟩ := isLength value (by simp [isFirst])
    simp [announced?, undeclared, uninferred] at announced
  refine ⟨⟨codings.1, by omega, ?_⟩, ⟨lengths, codings.2⟩⟩
  intro value member
  obtain ⟨n, read, -⟩ := isLength (Bytes.space :: Bytes.ofText value)
    (List.mem_append_left _ (List.mem_map_of_mem member))
  exact Head.digits_of_contentLength? read

/-- A single length in plain digits is read as the one that was declared. -/
theorem read_declared (built : Built status headers head) (plain : PlainlyFramed headers)
    {value : String} (member : value ∈ ResponseHead.valuesOf "content-length" headers) :
    ∃ n, Head.contentLength? (Bytes.ofText value) = some n ∧ head.contentLength = some n := by
  have only : ResponseHead.valuesOf "content-length" headers = [value] := by
    obtain ⟨other, isOnly⟩ := List.length_eq_one_iff.1
      (Nat.le_antisymm plain.single (List.length_pos_of_mem member))
    rw [isOnly] at member ⊢
    rw [List.mem_singleton.1 member]
  obtain ⟨n, declared⟩ := Option.isSome_iff_exists.1 (built.declared value member)
  obtain ⟨nonempty, digit⟩ := plain.plain value member
  refine ⟨n, ?_, ?_⟩
  · rw [← Text.numeral?_of_digits nonempty digit]
    exact declared
  · rw [built.length, only]
    exact declared

/-- Headers with one length in plain digits, or with none, leave one framing. -/
theorem unambiguous (built : Built status headers head)
    (parts : Parts fields headers head length context) (word : length.Word)
    (plain : PlainlyFramed headers) (unframed : context.Unframed) :
    Unambiguous fields (ResponseFraming.decide head length context)
      (announced? head length) := by
  have lengths := parts.lengths
  have codings := parts.codings
  rw [unframed.lengths, List.append_nil] at lengths
  rw [unframed.codings, plain.uncoded, List.map_nil, List.nil_append, List.append_nil] at codings
  refine ⟨?_, ?_, ?_⟩
  · rw [lengths, codings, List.length_append, List.length_map, List.length_map]
    cases chunked : (ResponseFraming.decide head length context).chunked with
    | true =>
        have unannounced := unannounced_of_chunked chunked
        rw [announced?, Option.or_eq_none_iff, built.undeclared_iff] at unannounced
        simp [unannounced.1, unannounced.2]
    | false =>
        cases inferred : ResponseFraming.inferred? head length with
        | none => simpa using plain.single
        | some n =>
            have nothing := built.undeclared_iff.1 (undeclared_of_inferred inferred).1
            simp [nothing]
  · rw [codings]
    cases (ResponseFraming.decide head length context).chunked <;> simp
  · intro value member
    rw [lengths, List.mem_append, List.mem_map, List.mem_map] at member
    rcases member with ⟨given, isGiven, rfl⟩ | ⟨n, isInferred, rfl⟩
    · obtain ⟨n, read, declared⟩ := built.read_declared plain isGiven
      exact ⟨n, read, by simp [announced?, declared]⟩
    · have inferred := Option.mem_toList.1 isInferred
      obtain ⟨undeclared, rfl⟩ := undeclared_of_inferred inferred
      have read := Head.contentLength?_of_numeral (Bytes.decimalNumeral_ofNat n) word
      refine ⟨n, (Head.contentLength?_space _).trans read, ?_⟩
      rw [announced?, undeclared, Option.none_or]
      exact inferred

end ResponseHead.Built

/-! ## The head of an accepted call -/

/-- **A head that is accepted frames its body in one way, as it was declared, exactly when
the application gave at most one length, in plain digits, and no transfer coding**, unless
the server's name or the date bring a framing in. -/
theorem StartResponse.call_framing {start started : StartResponse} {status : String}
    {headers : List (String × String)} {excuse : Option AppError}
    (called : start.call status headers excuse = .ok started) :
    ∃ head, started.head = some head ∧
      ∀ (length : BodyLength) (context : HeadContext), length.Word →
        (Unambiguous (Bytes.headFields (assembleHead head length context).1)
            (assembleHead head length context).2 (announced? head length) ↔
          PlainlyFramed headers ∧ context.Unframed) := by
  obtain ⟨head, accepted, rfl⟩ := StartResponse.call_ok called
  have built := ResponseHead.build_ok accepted
  refine ⟨head, rfl, fun length context word => ?_⟩
  have parts := built.parts length context
  exact ⟨built.plainlyFramed parts, fun ⟨plain, unframed⟩ =>
    built.unambiguous parts word plain unframed⟩

/-- One length of five octets is announced once; behind a length of three it is announced
too, and counts, but the three octets stand in the head as well. -/
theorem StartResponse.repeated_length_ambiguous :
    let context : HeadContext :=
      ⟨.http11, false, true, "hearth", Bytes.ofAscii "Thu, 01 Jan 1970 00:00:00 GMT"⟩
    let fields := fun head => Bytes.headFields (assembleHead head (.known 5) context).1
    let framing := fun head => (assembleHead head (.known 5) context).2
    (∃ head, StartResponse.new.call "200 OK" [("Content-Length", "5")] none =
        .ok ⟨some head, false⟩ ∧
      Unambiguous (fields head) (framing head) (announced? head (.known 5))) ∧
    ∃ head, StartResponse.new.call "200 OK"
        [("Content-Length", "3"), ("Content-Length", "5")] none = .ok ⟨some head, false⟩ ∧
      announced? head (.known 5) = some 5 ∧
      Head.valuesOf "content-length" (fields head) = [Bytes.ofAscii " 3", Bytes.ofAscii " 5"] ∧
      ¬ Unambiguous (fields head) (framing head) (announced? head (.known 5)) := by
  intro context fields framing
  have word : (BodyLength.known 5).Word := by
    rw [BodyLength.Word]
    decide
  have unframed : context.Unframed := HeadContext.unframed (by decide) (by decide)
  constructor
  · have called : StartResponse.new.call "200 OK" [("Content-Length", "5")] none =
        .ok ⟨some ⟨"200 OK", 200, [("Content-Length", "5")], some 5, false⟩, false⟩ := rfl
    obtain ⟨head, pending, iff⟩ := StartResponse.call_framing called
    cases pending
    exact ⟨_, called, (iff (.known 5) context word).2
      ⟨⟨by decide, by decide, by decide +kernel⟩, unframed⟩⟩
  · have called : StartResponse.new.call "200 OK"
        [("Content-Length", "3"), ("Content-Length", "5")] none =
        .ok ⟨some ⟨"200 OK", 200,
          [("Content-Length", "3"), ("Content-Length", "5")], some 5, false⟩, false⟩ := rfl
    obtain ⟨head, pending, iff⟩ := StartResponse.call_framing called
    cases pending
    refine ⟨_, called, rfl, by decide +kernel, fun unambiguous => ?_⟩
    obtain ⟨plain, -⟩ := (iff (.known 5) context word).1 unambiguous
    have single := plain.single
    revert single
    decide

end EmbeddedHttp
