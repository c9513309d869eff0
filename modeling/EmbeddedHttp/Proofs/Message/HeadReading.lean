/-
# EmbeddedHttp.Proofs.Message.HeadReading -- a written head is read back

The scan of a head is followed through the parts of a written request: its method,
target and version, then one field line after the other (`feed_fields`), then the
empty line.  At the last octet, and not before, the head is complete, and it consists
of the parts as they were written (`Scan.feed_head`); a parser between messages takes
it whenever it keeps to the size limit (`Parser.octets_head`).
-/
import EmbeddedHttp.Proofs.Message.Octets
import EmbeddedHttp.Proofs.Message.Written
import EmbeddedHttp.Proofs.Text.Utf8

namespace EmbeddedHttp

set_option autoImplicit false

namespace Head

/-! ## Classes of octets -/

theorem isValueOctet_of_isSpacing {b : UInt8} (spacing : isSpacing b = true) :
    isValueOctet b = true := by
  simp only [isSpacing, Bool.or_eq_true, beq_iff_eq] at spacing
  rcases spacing with rfl | rfl <;> decide

theorem token_facts {b : UInt8} (token : isToken b = true) :
    (b == Bytes.cr) = false ∧ (b == Bytes.lf) = false ∧ (b == Bytes.space) = false ∧
      (b == 58) = false := by
  refine ⟨?_, ?_, ?_, ?_⟩ <;>
  · rw [beq_eq_false_iff_ne]
    rintro rfl
    revert token
    decide

theorem not_isToken_space : isToken Bytes.space = false := by decide

theorem not_isToken_colon : isToken 58 = false := by decide

theorem not_isTargetOctet_space : isTargetOctet Bytes.space = false := by decide

theorem isToken_method (method : Method) :
    ∀ b ∈ Bytes.ofAscii method.name, isToken b = true := by
  cases method <;> decide +kernel

theorem method_nonempty (method : Method) : Bytes.ofAscii method.name ≠ [] := by
  cases method <;> decide +kernel

namespace Scan

/-! ## Octets in a row -/

/-- The scan behind octets that neither complete the head nor spoil it. -/
def feed : Scan → Bytes → Option Scan
  | scan, [] => some scan
  | scan, b :: rest =>
      match scan.step b with
      | .more next => feed next rest
      | _ => none

@[simp] theorem feed_nil (scan : Scan) : scan.feed [] = some scan := rfl

theorem feed_cons {scan next : Scan} {b : UInt8} (stepped : scan.step b = .more next)
    (rest : Bytes) : scan.feed (b :: rest) = next.feed rest := by
  rw [feed, stepped]

theorem feed_append {scan next : Scan} {first : Bytes} (fed : scan.feed first = some next)
    (second : Bytes) : scan.feed (first ++ second) = next.feed second := by
  induction first generalizing scan with
  | nil => rw [← Option.some.inj fed, List.nil_append]
  | cons b rest ih =>
      rw [List.cons_append]
      simp only [feed] at fed ⊢
      cases stepped : scan.step b with
      | more further =>
          simp only [stepped] at fed ⊢
          exact ih fed
      | _ => simp [stepped] at fed

/-- Octets of a class that a place keeps are gathered there. -/
theorem feed_kept {place : Place} {wanted : UInt8 → Bool}
    (keeps : ∀ (scan : Scan) (b : UInt8), scan.place = place → wanted b = true →
      scan.step b = .more (scan.keep place b))
    (scan : Scan) (here : scan.place = place) (part : Bytes)
    (all : ∀ b ∈ part, wanted b = true) :
    scan.feed part = some { scan with part := part.reverse ++ scan.part } := by
  induction part generalizing scan with
  | nil => rfl
  | cons b rest ih =>
      have first := keeps scan b here (all b List.mem_cons_self)
      rw [feed_cons first, ih _ rfl fun c member => all c (List.mem_cons_of_mem _ member)]
      subst here
      simp [keep]

theorem keeps_method (scan : Scan) (b : UInt8) (here : scan.place = .method)
    (token : isToken b = true) : scan.step b = .more (scan.keep .method b) := by
  simp only [step, here, token, if_true]

theorem keeps_target (scan : Scan) (b : UInt8) (here : scan.place = .target)
    (octet : isTargetOctet b = true) : scan.step b = .more (scan.keep .target b) := by
  simp only [step, here, octet, if_true]

theorem keeps_name (scan : Scan) (b : UInt8) (here : scan.place = .name)
    (token : isToken b = true) : scan.step b = .more (scan.keep .name b) := by
  simp only [step, here, token, if_true]

theorem keeps_value (scan : Scan) (b : UInt8) (here : scan.place = .value)
    (octet : isValueOctet b = true) : scan.step b = .more (scan.keep .value b) := by
  simp only [step, here, octet, if_true]

/-! ## Field lines -/

/-- Before the next line of a head, with the parts that are finished. -/
def atLine (method target : Bytes) (version : Version) (fields : List (Bytes × Bytes)) : Scan :=
  ⟨.lineStart, method, target, version, fields, [], []⟩

/-- Spacing in front of a value is passed over. -/
theorem feed_spacing {scan : Scan} (here : scan.place = .beforeValue) {part : Bytes}
    (all : ∀ b ∈ part, isSpacing b = true) : scan.feed part = some scan := by
  induction part with
  | nil => rfl
  | cons b rest ih =>
      have first : scan.step b = .more scan := by
        simp only [step, here, all b List.mem_cons_self, if_true]
      rw [feed_cons first]
      exact ih fun c member => all c (List.mem_cons_of_mem _ member)

/-- The name of a field, and the colon. -/
theorem feed_name (scan : Scan) (here : scan.place = .lineStart) (clean : scan.part = [])
    {name : Bytes} (nonempty : name ≠ []) (all : ∀ b ∈ name, isToken b = true) :
    scan.feed (name ++ [58]) = some { scan with place := .beforeValue, name := name } := by
  cases name with
  | nil => exact absurd rfl nonempty
  | cons b rest =>
      obtain ⟨noReturn, noFeed, -, -⟩ := token_facts (all b List.mem_cons_self)
      have first : scan.step b = .more (scan.keep .name b) := by
        simp only [step, here, noReturn, noFeed, all b List.mem_cons_self]
        simp
      have named := feed_kept keeps_name (scan.keep .name b) rfl rest
        fun c member => all c (List.mem_cons_of_mem _ member)
      rw [List.cons_append, feed_cons first, feed_append named]
      simp [feed, step, keep, clean, not_isToken_colon]

/-- A value with the spacing around it. -/
theorem feed_value (scan : Scan) (here : scan.place = .beforeValue) (clean : scan.part = [])
    {before value after : Bytes} (spaced : ∀ b ∈ before, isSpacing b = true)
    (octets : ∀ b ∈ value, isValueOctet b = true)
    (front : ∀ b, value.head? = some b → isSpacing b = false)
    (trailed : ∀ b ∈ after, isSpacing b = true) :
    ∃ place, (place = .beforeValue ∨ place = .value) ∧
      scan.feed (before ++ value ++ after) =
        some { scan with place := place, part :=
          if value = [] then [] else after.reverse ++ value.reverse } := by
  cases value with
  | nil =>
      refine ⟨.beforeValue, .inl rfl, ?_⟩
      rw [List.append_nil, feed_append (feed_spacing here spaced), feed_spacing here trailed]
      obtain ⟨place, method, target, version, fields, name, part⟩ := scan
      subst here clean
      rfl
  | cons b rest =>
      have first : scan.step b = .more (scan.keep .value b) := by
        simp only [step, here, front b rfl, octets b List.mem_cons_self]
        simp
      have all : ∀ c ∈ rest ++ after, isValueOctet c = true := by
        intro c member
        rcases List.mem_append.1 member with inValue | inAfter
        · exact octets c (List.mem_cons_of_mem _ inValue)
        · exact isValueOctet_of_isSpacing (trailed c inAfter)
      refine ⟨.value, .inr rfl, ?_⟩
      rw [List.append_assoc, feed_append (feed_spacing here spaced), List.cons_append,
        feed_cons first, feed_kept keeps_value _ rfl _ all]
      simp [keep, clean]

/-- The spacing behind a value is dropped, and nothing of the value. -/
theorem dropWhile_spacing {value after : Bytes} (trailed : ∀ b ∈ after, isSpacing b = true)
    (back : ∀ b, value.getLast? = some b → isSpacing b = false) :
    (after.reverse ++ value.reverse).dropWhile isSpacing = value.reverse := by
  rw [List.dropWhile_append_of_pos fun b member => trailed b (List.mem_reverse.1 member)]
  cases reversed : value.reverse with
  | nil => rfl
  | cons b rest =>
      have last : value.getLast? = some b := by
        rw [← List.head?_reverse, reversed, List.head?_cons]
      rw [List.dropWhile_cons_of_neg (by simp [back b last])]

/-- The end of a field line stores the field. -/
theorem feed_fieldEnd {scan : Scan} (here : scan.place = .beforeValue ∨ scan.place = .value)
    (room : scan.fields.length < maxFields) (ending : LineEnd) :
    scan.feed ending.octets =
      some { scan with
        place := .lineStart
        fields := (scan.name, (scan.part.dropWhile isSpacing).reverse) :: scan.fields
        name := [], part := [] } := by
  have room : ¬ maxFields ≤ scan.fields.length := by omega
  cases ending <;> rcases here with here | here <;>
    simp [LineEnd.octets, feed, step, here, endField, room, isSpacing, isValueOctet,
      Bytes.cr, Bytes.lf]

/-- One field line. -/
theorem feed_field (method target : Bytes) (version : Version) (fields : List (Bytes × Bytes))
    {field : WrittenField} (legal : field.Legal) (room : fields.length < maxFields) :
    (atLine method target version fields).feed field.octets =
      some (atLine method target version (field.raw :: fields)) := by
  have named := feed_name (atLine method target version fields) rfl rfl
    legal.name_nonempty legal.name_token
  obtain ⟨place, where_, valued⟩ := feed_value
    { atLine method target version fields with place := .beforeValue, name := field.raw.1 }
    rfl rfl legal.before_spacing legal.value_octet legal.value_front legal.after_spacing
  have line : field.octets = (field.raw.1 ++ [58]) ++
      ((field.before ++ field.raw.2 ++ field.after) ++ field.ending.octets) := by
    simp [WrittenField.octets]
  rw [line, feed_append named, feed_append valued, feed_fieldEnd where_ room]
  have kept : ((if field.raw.2 = [] then [] else field.after.reverse ++
      field.raw.2.reverse).dropWhile isSpacing).reverse = field.raw.2 := by
    split
    · rename_i empty
      rw [empty]
      rfl
    · rw [dropWhile_spacing legal.after_spacing legal.value_back, List.reverse_reverse]
  simp only [kept, atLine]

/-- **Every field line is read as the field that it was written for.** -/
theorem feed_fields (method target : Bytes) (version : Version) (done : List (Bytes × Bytes))
    {fields : List WrittenField} (legal : ∀ field ∈ fields, field.Legal)
    (room : done.length + fields.length ≤ maxFields) :
    (atLine method target version done).feed (fields.flatMap WrittenField.octets) =
      some (atLine method target version ((fields.map WrittenField.raw).reverse ++ done)) := by
  induction fields generalizing done with
  | nil => rfl
  | cons field rest ih =>
      simp only [List.length_cons] at room
      have first := feed_field method target version done (legal field List.mem_cons_self)
        (by omega)
      rw [List.flatMap_cons, feed_append first,
        ih _ (fun f member => legal f (List.mem_cons_of_mem _ member))
          (by simp only [List.length_cons]; omega)]
      simp

/-! ## The start line -/

/-- The version, up to the end of the start line. -/
theorem feed_version {scan : Scan} (here : scan.place = .version versionStem) (version : Version) :
    scan.feed (Bytes.ofAscii version.name) =
      some { scan with place := .startLineEnd, version := version } := by
  obtain ⟨place, method, target, found, fields, name, part⟩ := scan
  subst here
  cases version <;> rfl

theorem feed_startEnd {scan : Scan} (here : scan.place = .startLineEnd) (ending : LineEnd) :
    scan.feed ending.octets = some { scan with place := .lineStart } := by
  cases ending <;> simp [LineEnd.octets, feed, step, here, Bytes.cr, Bytes.lf]

/-- The start line and its end. -/
theorem feed_start {limits : Limits} {request : WrittenRequest} (legal : request.Legal limits) :
    start.feed (request.startLine ++ request.startEnd.octets) =
      some (atLine (Bytes.ofAscii request.method.name) (Bytes.ofText request.target)
        request.version []) := by
  have method := feed_kept keeps_method start rfl _ (isToken_method request.method)
  have target := feed_kept keeps_target
    { start with place := .target, method := Bytes.ofAscii request.method.name } rfl _
    legal.target_octet
  have afterMethod : ({ start with
      part := (Bytes.ofAscii request.method.name).reverse ++ start.part } : Scan).step Bytes.space =
      .more { start with place := .target, method := Bytes.ofAscii request.method.name } := by
    simp [step, start, not_isToken_space, method_nonempty]
  have afterTarget : ({ start with
      place := .target, method := Bytes.ofAscii request.method.name
      part := (Bytes.ofText request.target).reverse ++ start.part } : Scan).step Bytes.space =
      .more { start with
        place := .version versionStem, method := Bytes.ofAscii request.method.name
        target := Bytes.ofText request.target } := by
    simp [step, start, not_isTargetOctet_space, legal.target_nonempty, Utf8.valid_ofText]
  rw [WrittenRequest.startLine, List.append_assoc, feed_append method, List.cons_append,
    feed_cons afterMethod, List.append_assoc, feed_append target, List.cons_append,
    feed_cons afterTarget, feed_append (feed_version rfl _), feed_startEnd rfl]
  rfl

/-! ## The whole head -/

/-- The empty line completes the head, at its last octet. -/
theorem feed_headEnd (scan : Scan) (here : scan.place = .lineStart) (ending : LineEnd) :
    ∃ front last, ending.octets = front ++ [Bytes.lf] ∧ scan.feed front = some last ∧
      last.step Bytes.lf = .complete scan.head := by
  cases ending with
  | full =>
      refine ⟨[Bytes.cr], { scan with place := .headFeed }, rfl, ?_, rfl⟩
      simp [feed, step, here]
  | feed =>
      refine ⟨[], scan, rfl, rfl, ?_⟩
      simp [step, here, Bytes.cr, Bytes.lf]

/-- **A written head is complete at its last octet, and says what was written.** -/
theorem feed_head {limits : Limits} {request : WrittenRequest} (legal : request.Legal limits) :
    ∃ front last, request.head = front ++ [Bytes.lf] ∧ start.feed front = some last ∧
      last.step Bytes.lf = .complete request.rawHead := by
  have started := feed_start legal
  have fields := feed_fields (Bytes.ofAscii request.method.name) (Bytes.ofText request.target)
    request.version [] legal.fields_legal
      (by simpa [Request.maxFields, maxFields] using legal.fields_count)
  obtain ⟨front, last, split, ended, complete⟩ := feed_headEnd
    (atLine (Bytes.ofAscii request.method.name) (Bytes.ofText request.target)
      request.version ((request.fields.map WrittenField.raw).reverse ++ []))
    rfl request.headEnd
  refine ⟨request.startLine ++ request.startEnd.octets ++
    request.fields.flatMap WrittenField.octets ++ front, last, ?_, ?_, ?_⟩
  · rw [WrittenRequest.head, split, List.append_assoc _ front]
  · rw [List.append_assoc, feed_append started, feed_append fields, ended]
  · rw [complete]
    simp [head, atLine, WrittenRequest.rawHead, WrittenRequest.rawFields]

end Scan

end Head

namespace Parser

/-- A parser in a head goes where the scan goes, as long as the head keeps to its limit. -/
theorem octets_scan {scan last : Head.Scan} {size : Nat} {part : Bytes}
    (fed : scan.feed part = some last) (fits : size + part.length < Head.maxSize) :
    (Parser.head scan size).octets part = ([], .ok (.head last (size + part.length))) := by
  induction part generalizing scan size with
  | nil => rw [← Option.some.inj fed]; rfl
  | cons b rest ih =>
      simp only [List.length_cons] at fits
      simp only [Head.Scan.feed] at fed
      cases stepped : scan.step b with
      | more next =>
          simp only [stepped] at fed
          have below : ¬ Head.maxSize ≤ size + 1 := by omega
          have further : (Parser.head next (size + 1)).octets rest =
              ([], .ok (.head last (size + 1 + rest.length))) := ih fed (by omega)
          have count : size + 1 + rest.length = size + (rest.length + 1) := by omega
          rw [octets_cons, step, headStep, stepped]
          simp only [below, if_false, afterStep, further, List.nil_append, List.length_cons, count]
      | _ => simp [stepped] at fed

/-- The first octet of a message is the first octet of its head. -/
theorem octets_begin {b : UInt8} (rest : Bytes) (noReturn : (b == Bytes.cr) = false)
    (noFeed : (b == Bytes.lf) = false) :
    Parser.idle.octets (b :: rest) =
      (.begin :: ((Parser.head Head.Scan.start 0).octets (b :: rest)).1,
        ((Parser.head Head.Scan.start 0).octets (b :: rest)).2) := by
  rw [octets_cons, octets_cons]
  simp only [step, noReturn, noFeed, Bool.or_self]
  obtain ⟨events, result⟩ := headStep Head.Scan.start 0 b
  cases result <;> rfl

/-- **Between messages, a written head is taken as a whole.** -/
theorem octets_head {limits : Limits} {request : WrittenRequest} (legal : request.Legal limits)
    {events : List Event} {next : Parser}
    (headed : afterHead request.rawHead = (events, .ok (next, 0))) :
    Parser.idle.octets request.head = (.begin :: events, .ok next) := by
  obtain ⟨front, last, split, fed, complete⟩ := Head.Scan.feed_head legal
  have size := legal.head_size
  rw [split, List.length_append, List.length_singleton] at size
  have scanned : (Parser.head Head.Scan.start 0).octets request.head = (events, .ok next) := by
    rw [split, octets_append_ok (octets_scan fed (by omega)), octets_cons, step, headStep,
      complete]
    simp [headed, afterStep]
  cases spelled : Bytes.ofAscii request.method.name with
  | nil => exact absurd spelled (Head.method_nonempty request.method)
  | cons b rest =>
      have token := Head.isToken_method request.method b (by rw [spelled]; exact List.mem_cons_self)
      obtain ⟨noReturn, noFeed, -, -⟩ := Head.token_facts token
      have front : ∃ more, request.head = b :: more := by
        simp only [WrittenRequest.head, WrittenRequest.startLine, spelled, List.cons_append]
        exact ⟨_, rfl⟩
      obtain ⟨more, starts⟩ := front
      rw [starts] at scanned ⊢
      rw [octets_begin more noReturn noFeed, scanned]

end Parser

end EmbeddedHttp
