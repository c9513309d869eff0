/-
# EmbeddedHttp.Proofs.Response.Accepting -- what is kept of an application's headers

A call that is accepted leaves a head in which every header fits on a line of its own
(`ResponseHead.Legal`) and from which only the headers are missing that the server sets
itself (`checkHeaders_ok`).  The length of the head is the last one that was declared: an
earlier one is kept as a header, but nothing compares the two.
-/
import EmbeddedHttp.Response.Head

namespace EmbeddedHttp

set_option autoImplicit false

namespace Text

theorem not_sameIgnoringCase_of_same {s first : String} (second : String)
    (apart : first.toList.map Char.toLower ≠ second.toList.map Char.toLower)
    (same : sameIgnoringCase s first = true) : sameIgnoringCase s second = false := by
  simp only [sameIgnoringCase, beq_iff_eq] at same
  simp only [sameIgnoringCase, same, beq_eq_false_iff_ne]
  exact apart

end Text

namespace ResponseHead

/-! ## Headers -/

/-- The values of the headers with a given name, in any case of its letters. -/
def valuesOf (name : String) (headers : List (String × String)) : List String :=
  (headers.filter fun header => Text.sameIgnoringCase header.1 name).map (·.2)

theorem valuesOf_cons (name : String) (header : String × String)
    (rest : List (String × String)) :
    valuesOf name (header :: rest) =
      if Text.sameIgnoringCase header.1 name then header.2 :: valuesOf name rest
      else valuesOf name rest := by
  rw [valuesOf, List.filter_cons]
  split <;> rfl

/-- The length that a header value declares. -/
def declared? (value : String) : Option Nat :=
  Text.numeral? Bytes.wordBound (Text.trimChars value.toList)

/-- The server's own headers are not the application's to set, and what becomes of the
connection is so only in a switch of protocols. -/
def stays (code : Nat) (header : String × String) : Bool :=
  !(Text.sameIgnoringCase header.1 "server" || Text.sameIgnoringCase header.1 "date" ||
    Text.sameIgnoringCase header.1 "connection" && code != 101)

theorem stays_of_same {code : Nat} {header : String × String} {name : String}
    (apart : ∀ own ∈ ["server", "date", "connection"],
      name.toList.map Char.toLower ≠ own.toList.map Char.toLower)
    (same : Text.sameIgnoringCase header.1 name = true) : stays code header = true := by
  have other : ∀ own ∈ ["server", "date", "connection"],
      Text.sameIgnoringCase header.1 own = false := fun own member =>
    Text.not_sameIgnoringCase_of_same own (apart own member) same
  simp [stays, other]

/-- A header that stands on a line of its own, with a name that ends at the first colon. -/
structure Legal (header : String × String) : Prop where
  nonempty : header.1.isEmpty = false
  name : Text.has header.1 isBarredInName = false
  value : Text.has header.2 Text.isLineEnd = false

/-! ## The check -/

/-- What an accepted header adds to the headers before it. -/
structure Adds (code : Nat) (sofar next : Checked) (header : String × String) : Prop where
  legal : Legal header
  kept : next.kept = if stays code header then header :: sofar.kept else sofar.kept
  length : next.contentLength =
    if Text.sameIgnoringCase header.1 "content-length" then declared? header.2
    else sofar.contentLength
  declared : Text.sameIgnoringCase header.1 "content-length" = true →
    (declared? header.2).isSome = true

theorem checkHeader_adds {code : Nat} {sofar next : Checked} {name value : String}
    (accepted : checkHeader code sofar name value = .ok next) :
    Adds code sofar next (name, value) := by
  rw [checkHeader] at accepted
  split at accepted
  · cases accepted
  rename_i named
  split at accepted
  · cases accepted
  rename_i clean
  have legal : Legal (name, value) := by
    rw [Bool.not_eq_true] at named clean
    rw [Bool.or_eq_false_iff] at named
    exact ⟨named.1, named.2, clean⟩
  -- the cases follow the check: the first name that fits decides, and excludes the others
  split at accepted
  · rename_i own
    cases accepted
    have other : Text.sameIgnoringCase name "content-length" = false := by
      rcases Bool.or_eq_true _ _ ▸ own with server | date
      · exact Text.not_sameIgnoringCase_of_same _ (by decide) server
      · exact Text.not_sameIgnoringCase_of_same _ (by decide) date
    exact ⟨legal, by simp [stays, own], by simp [other], by simp [other]⟩
  rename_i notOwn
  split at accepted
  · rename_i connection
    cases accepted
    have other : Text.sameIgnoringCase name "content-length" = false :=
      Text.not_sameIgnoringCase_of_same _ (by decide) (Bool.and_eq_true _ _ ▸ connection).1
    exact ⟨legal, by simp [stays, connection], by simp [other], by simp [other]⟩
  rename_i notConnection
  have kept : stays code (name, value) = true := by
    rw [Bool.not_eq_true] at notOwn notConnection
    simp only [stays, notOwn, notConnection, Bool.or_false, Bool.not_false]
  split at accepted
  · rename_i isLength
    split at accepted
    · cases accepted
    · rename_i n numeral
      cases accepted
      exact ⟨legal, by simp [kept], by simp [isLength, declared?, numeral],
        by simp [declared?, numeral]⟩
  · rename_i isOther
    cases accepted
    exact ⟨legal, by simp [kept], by simp [isOther], by simp [isOther]⟩

theorem last_declared {values : List String}
    (declared : ∀ value ∈ values, (declared? value).isSome = true) (given : values ≠ []) :
    ∃ n, values.getLast?.bind declared? = some n := by
  have isLast := List.getLast?_eq_some_getLast given
  obtain ⟨n, numeral⟩ := Option.isSome_iff_exists.1
    (declared _ (List.mem_of_getLast? isLast))
  exact ⟨n, by rw [isLast, Option.bind_some, numeral]⟩

/-- A length in front of others counts only where there are none. -/
theorem last_declared_cons {value : String} {values : List String}
    (first : (declared? value).isSome = true)
    (declared : ∀ value ∈ values, (declared? value).isSome = true) (before : Option Nat) :
    (values.getLast?.bind declared?).or (declared? value) =
      ((value :: values).getLast?.bind declared?).or before := by
  obtain ⟨n, numeral⟩ := Option.isSome_iff_exists.1 first
  cases values with
  | nil => simp [numeral]
  | cons second others =>
      obtain ⟨m, last⟩ := last_declared declared (List.cons_ne_nil second others)
      rw [List.getLast?_cons_cons, last, Option.some_or, Option.some_or]

/-- **Headers that are accepted are legal, are kept in order but for the server's own, and
the last length that they declare counts.** -/
theorem checkHeaders_ok {code : Nat} {sofar checked : Checked}
    {headers : List (String × String)} (accepted : checkHeaders code sofar headers = .ok checked) :
    (∀ header ∈ headers, Legal header) ∧
      checked.kept = (headers.filter (stays code)).reverse ++ sofar.kept ∧
      checked.contentLength =
        (((valuesOf "content-length" headers).getLast?.bind declared?).or sofar.contentLength) ∧
      ∀ value ∈ valuesOf "content-length" headers, (declared? value).isSome = true := by
  induction headers generalizing sofar with
  | nil =>
      rw [checkHeaders] at accepted
      cases accepted
      simp [valuesOf]
  | cons header rest ih =>
      rw [checkHeaders] at accepted
      split at accepted
      · cases accepted
      rename_i next added
      have adds := checkHeader_adds added
      obtain ⟨legal, kept, length, declared⟩ := ih accepted
      refine ⟨List.forall_mem_cons.2 ⟨adds.legal, legal⟩, ?_, ?_, ?_⟩
      · rw [kept, adds.kept, List.filter_cons]
        split <;> simp
      · rw [length, adds.length, valuesOf_cons]
        split
        · rename_i isLength
          exact last_declared_cons (adds.declared isLength) declared sofar.contentLength
        · rfl
      · rw [valuesOf_cons]
        split
        · rename_i isLength
          exact List.forall_mem_cons.2 ⟨adds.declared isLength, declared⟩
        · exact declared

/-- What a head owes to the status and the headers that it was built from. -/
structure Built (status : String) (headers : List (String × String)) (head : ResponseHead) :
    Prop where
  status : head.status = Text.trim status
  line : Text.has head.status Text.isLineEnd = false
  code : code? head.status = some head.code
  legal : ∀ header ∈ headers, Legal header
  kept : head.headers = headers.filter (stays head.code)
  length : head.contentLength = (valuesOf "content-length" headers).getLast?.bind declared?
  declared : ∀ value ∈ valuesOf "content-length" headers, (declared? value).isSome = true

theorem build_ok {status : String} {headers : List (String × String)} {head : ResponseHead}
    (accepted : build status headers = .ok head) : Built status headers head := by
  simp only [build] at accepted
  split at accepted
  · cases accepted
  rename_i code numeral
  split at accepted
  · cases accepted
  rename_i line
  split at accepted
  · cases accepted
  rename_i checked passed
  cases accepted
  obtain ⟨legal, kept, length, declared⟩ := checkHeaders_ok passed
  exact {
    status := rfl
    line := Bool.eq_false_iff.2 line
    code := numeral
    legal := legal
    kept := by simp [kept]
    length := by simp [length]
    declared := declared }

end ResponseHead

namespace StartResponse

/-- A call that is accepted replaces the head by one that was built, and nothing else. -/
theorem call_ok {start started : StartResponse} {status : String}
    {headers : List (String × String)} {excuse : Option AppError}
    (called : start.call status headers excuse = .ok started) :
    ∃ head, ResponseHead.build status headers = .ok head ∧
      started = { start with head := some head } := by
  rw [call.eq_def] at called
  generalize ResponseHead.build status headers = built at called ⊢
  -- a call is refused for what stands already, or accepted with what was built
  cases built with
  | error error =>
      cases excuse <;> simp only at called <;> split at called <;> cases called
  | ok head =>
      cases excuse <;> simp only at called <;> split at called <;> cases called <;>
        exact ⟨head, rfl, rfl⟩

end StartResponse

end EmbeddedHttp
