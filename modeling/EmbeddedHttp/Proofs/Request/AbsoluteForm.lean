/-
# EmbeddedHttp.Proofs.Request.AbsoluteForm -- what of a target in absolute form is its path

Behind an authority stand a path, a query behind a question mark and a fragment behind a hash,
and each of them may be missing (`Target.Parts`).  A target in absolute form is read from its
first slash on, wherever that stands.  So it is read as what stands behind its authority if that
begins with a path; if not, the path begins inside the query or the fragment, or there is
nothing but a slash, and a query is lost (`Target.split_absolute`).
-/
import EmbeddedHttp.Request.Target

namespace EmbeddedHttp.Target

set_option autoImplicit false

open Text (cut marked)

/-! ## The parts of a target -/

/-- What stands behind an authority. -/
structure Parts where
  path : List Char
  /-- What stands behind the question mark. -/
  query : Option (List Char)
  /-- What stands behind the hash. -/
  fragment : Option (List Char)
  path_plain : '?' ∉ path ∧ '#' ∉ path
  query_plain : ∀ part ∈ query, '#' ∉ part

namespace Parts

/-- The parts in front of the fragment. -/
def visible (parts : Parts) : List Char := parts.path ++ marked '?' parts.query

/-- The parts as they are written. -/
def text (parts : Parts) : List Char := parts.visible ++ marked '#' parts.fragment

/-- What is read of the parts: the path, and a query, if only an empty one. -/
def reading (parts : Parts) : String × String :=
  (String.ofList parts.path, String.ofList (parts.query.getD []))

/-- An empty path is the same as a slash. -/
def rooted (parts : Parts) : Parts :=
  if parts.path = [] then { parts with path := ['/'], path_plain := by decide } else parts

theorem visible_plain (parts : Parts) : '#' ∉ parts.visible := by
  rw [visible, List.mem_append, not_or]
  refine ⟨parts.path_plain.2, ?_⟩
  cases query : parts.query with
  | none => exact List.not_mem_nil
  | some part => simp [marked, parts.query_plain part query]

/-- What has no hash is a path, or one with a query; any fragment may stand behind it. -/
theorem exists_visible {s : List Char} (plain : '#' ∉ s) (fragment : Option (List Char)) :
    ∃ parts : Parts, parts.visible = s ∧ parts.fragment = fragment := by
  have whole := Text.marked_cut '?' s
  rw [← whole, List.mem_append, not_or] at plain
  refine ⟨⟨(cut '?' s).1, (cut '?' s).2, fragment, ⟨Text.cut_absent '?' s, plain.1⟩,
    fun part has member => plain.2 ?_⟩, whole, rfl⟩
  rw [Option.mem_def.1 has]
  exact List.mem_cons_of_mem _ member

/-- **Every text has its parts.** -/
theorem exists_text (s : List Char) : ∃ parts : Parts, parts.text = s := by
  obtain ⟨parts, visible, fragment⟩ := exists_visible (Text.cut_absent '#' s) (cut '#' s).2
  exact ⟨parts, by rw [text, visible, fragment, Text.marked_cut]⟩

/-- There is no more of a query than stands behind the first character. -/
theorem query_length {parts : Parts} {c : Char} {rest : List Char}
    (begins : parts.visible = c :: rest) : (parts.query.getD []).length ≤ rest.length := by
  have lengths := congrArg List.length begins
  rw [visible, List.length_append, List.length_cons] at lengths
  cases query : parts.query with
  | none => exact Nat.zero_le _
  | some part =>
      rw [query, marked, List.length_cons] at lengths
      rw [Option.getD_some]
      omega

end Parts

/-! ## Reading a target -/

/-- **A target is read as its parts**, once it is in origin form. -/
theorem split_eq {target : String} {parts : Parts} (is : origin target.toList = parts.text) :
    split target = parts.reading := by
  rw [split, is, Parts.text, Text.cut_marked parts.visible_plain, Parts.visible,
    Text.cut_marked parts.path_plain.1]
  rfl

/-- Only the origin form counts. -/
theorem split_congr {one other : String} (same : origin one.toList = origin other.toList) :
    split one = split other := by
  rw [split, split, same]

theorem after?_append (stem rest : List Char) : after? stem (stem ++ rest) = some rest := by
  induction stem with
  | nil => rfl
  | cons c stem ih => rw [List.cons_append, after?, if_pos (beq_self_eq_true c), ih]

/-- Only what begins with the letter of a scheme is in absolute form. -/
theorem origin_eq {s : List Char} (other : ∀ c ∈ s.head?, c ≠ 'h') : origin s = s := by
  have none : afterScheme? s = none := by
    cases s with
    | nil => rfl
    | cons c rest =>
        have differs : ('h' == c) = false := by simpa using (other c rfl).symm
        have stops : ∀ stem, after? ('h' :: stem) (c :: rest) = none := fun stem => by
          rw [after?, differs, if_neg Bool.false_ne_true]
        exact Option.or_eq_none_iff.2 ⟨stops _, stops _⟩
  rw [origin, none]

/-- An absolute form is read behind its authority. -/
theorem origin_scheme {scheme : String} (known : scheme = "http://" ∨ scheme = "https://")
    (rest : List Char) : origin (scheme.toList ++ rest) = behindAuthority rest := by
  have behind : afterScheme? (scheme.toList ++ rest) = some rest := by
    rcases known with rfl | rfl
    · rw [afterScheme?, after?_append, Option.some_or]
    · have other : after? "http://".toList ("https://".toList ++ rest) = none := rfl
      rw [afterScheme?, other, after?_append, Option.none_or]
  rw [origin, behind]

/-! ## Behind an authority -/

/-- An authority has no slash, so the first one stands behind it. -/
theorem behindAuthority_append {authority : List Char} (plain : '/' ∉ authority)
    (tail : List Char) : behindAuthority (authority ++ tail) = behindAuthority tail := by
  have passed : ∀ c ∈ authority, (c != '/') = true := by
    rintro c member
    rw [bne_iff_ne]
    rintro rfl
    exact plain member
  rw [behindAuthority, behindAuthority, List.dropWhile_append_of_pos passed]

/-- A path begins at the first slash, and is nothing but a slash when there is none. -/
theorem behindAuthority_eq (s : List Char) :
    behindAuthority s = '/' :: (cut '/' s).2.getD [] := by
  have behind := behindAuthority_append (Text.cut_absent '/' s) (marked '/' (cut '/' s).2)
  rw [Text.marked_cut] at behind
  rw [behind]
  cases (cut '/' s).2 <;> rfl

/-- What begins with a slash is read as its parts. -/
theorem split_slash {rest : List Char} {parts : Parts} (text : parts.text = '/' :: rest) :
    split (String.ofList ('/' :: rest)) = parts.reading := by
  refine split_eq ?_
  rw [String.toList_ofList, text]
  exact origin_eq (by rintro _ ⟨⟩; decide)

theorem split_lone : split (String.ofList ['/']) = ("/", "") := by decide

/-! ## Absolute forms -/

/-- The marks at which an authority ends. -/
def isMark (c : Char) : Bool := c == '/' || c == '?' || c == '#'

namespace Parts

variable {parts : Parts}

/-- Behind an authority, a path begins with a slash. -/
theorem text_of_path (begins : ∀ c ∈ parts.text.head?, isMark c = true)
    (present : parts.path ≠ []) : ∃ rest, parts.text = '/' :: rest := by
  obtain ⟨c, path, is⟩ := List.exists_cons_of_ne_nil present
  obtain ⟨question, hash⟩ := parts.path_plain
  rw [is, List.mem_cons, not_or] at question hash
  have spelled : parts.text =
      c :: (path ++ marked '?' parts.query ++ marked '#' parts.fragment) := by
    rw [text, visible, is]
    rfl
  have slash : c = '/' := by
    simpa [isMark, Ne.symm question.1, Ne.symm hash.1] using begins c (by rw [spelled]; rfl)
  exact ⟨_, slash ▸ spelled⟩

theorem rooted_reading (missing : parts.path = []) :
    parts.rooted.reading = ("/", String.ofList (parts.query.getD [])) := by
  rw [rooted, if_pos missing]
  rfl

/-- Behind an authority, parts that begin with a path are read from their first slash on. -/
theorem rooted_of_path (begins : ∀ c ∈ parts.text.head?, isMark c = true)
    (present : parts.path ≠ []) :
    split (String.ofList ('/' :: (cut '/' parts.text).2.getD [])) = parts.rooted.reading := by
  obtain ⟨rest, slash⟩ := parts.text_of_path begins present
  have first : cut '/' ('/' :: rest) = ([], some rest) := rfl
  rw [slash, first, Option.getD_some, split_slash slash, rooted, if_neg present]

/-- So is nothing at all: it is a path that is a slash. -/
theorem rooted_of_empty (empty : parts.text = []) :
    split (String.ofList ('/' :: (cut '/' parts.text).2.getD [])) = parts.rooted.reading := by
  have none : (parts.path = [] ∧ marked '?' parts.query = []) ∧ marked '#' parts.fragment = [] := by
    simpa only [text, visible, List.append_eq_nil_iff] using empty
  have noQuery : parts.query.getD [] = [] := by
    cases query : parts.query with
    | none => rfl
    | some part => simp [query, marked] at none
  rw [rooted_reading none.1.1, noQuery, empty]
  exact split_lone

/-- Without a path and with no slash in the fragment, what stands behind the first slash is a
shorter part of the query, if there is any. -/
theorem behind_slash (missing : parts.path = [])
    (plain : ∀ part ∈ parts.fragment, '/' ∉ part) :
    (cut '/' parts.text).2 = none ∨ ∃ front rest, parts.query = some (front ++ '/' :: rest) ∧
      (cut '/' parts.text).2 = some (rest ++ marked '#' parts.fragment) := by
  have noSlash : '/' ∉ marked '#' parts.fragment := by
    cases fragment : parts.fragment with
    | none => exact List.not_mem_nil
    | some part => simpa [marked] using plain part fragment
  have absent : ∀ {s : List Char}, '/' ∉ s → (cut '/' s).2 = none := by
    intro s plain
    have whole := Text.cut_marked plain none
    rw [marked, List.append_nil] at whole
    rw [whole]
  rw [text, visible, missing, List.nil_append]
  cases query : parts.query with
  | none => exact .inl (absent noSlash)
  | some part =>
      have before : '/' ∉ '?' :: (cut '/' part).1 := by simp [Text.cut_absent]
      have spelled := Text.marked_cut '/' part
      cases behind : (cut '/' part).2 with
      | none =>
          rw [behind, marked, List.append_nil] at spelled
          rw [spelled] at before
          exact .inl (absent (List.not_mem_append before noSlash))
      | some rest =>
          rw [behind, marked] at spelled
          refine .inr ⟨(cut '/' part).1, rest, by rw [spelled], ?_⟩
          have whole := Text.cut_marked before (some (rest ++ marked '#' parts.fragment))
          rw [← spelled]
          simpa [marked] using congrArg Prod.snd whole

/-- **A query behind no path is lost**, unless nothing is in it; a fragment with a slash is left
out here, since the path begins in it. -/
theorem rooted_of_query (missing : parts.path = [])
    (plain : ∀ part ∈ parts.fragment, '/' ∉ part) :
    split (String.ofList ('/' :: (cut '/' parts.text).2.getD [])) = parts.rooted.reading ↔
      parts.query.getD [] = [] := by
  rw [rooted_reading missing]
  rcases behind_slash missing plain with none | ⟨front, rest, query, behind⟩
  · rw [none, Option.getD_none, split_lone]
    constructor
    · intro same
      exact String.ofList_eq_empty_iff.1 (Prod.ext_iff.1 same).2.symm
    · intro nothing
      rw [nothing]
  · -- the path begins inside the query, so less of it is left
    have noHash : '#' ∉ '/' :: rest := by
      have all := parts.query_plain _ query
      simp only [List.mem_append, not_or] at all
      exact all.2
    obtain ⟨left, visible, fragment⟩ := exists_visible noHash parts.fragment
    have spelled : left.text = '/' :: (rest ++ marked '#' parts.fragment) := by
      rw [text, visible, fragment, List.cons_append]
    have shorter := query_length visible
    rw [behind, Option.getD_some, split_slash spelled, query, Option.getD_some]
    constructor
    · intro same
      have lengths := congrArg List.length (String.ofList_inj.1 (Prod.ext_iff.1 same).2)
      rw [List.length_append, List.length_cons] at lengths
      omega
    · intro nothing
      simp at nothing

end Parts

/-- **What of a target in absolute form is its path.**  Whatever stands behind the authority, it
is read from its first slash on.  If it begins with a path, or is empty, that is how it is read
on its own, an empty path being a slash.  If it begins with a query or a fragment, that is not so:
with no slash in the fragment, it is only if nothing is in the query. -/
theorem split_absolute {scheme authority tail : String}
    (known : scheme = "http://" ∨ scheme = "https://")
    (plain : ∀ c ∈ authority.toList, isMark c = false)
    (begins : ∀ c ∈ tail.toList.head?, isMark c = true) :
    let got := split (scheme ++ authority ++ tail)
    got = split (String.ofList ('/' :: (cut '/' tail.toList).2.getD [])) ∧
      ∃ parts : Parts, parts.text = tail.toList ∧ split tail = parts.reading ∧
        (parts.path ≠ [] ∨ tail = "" → got = parts.rooted.reading) ∧
        (parts.path = [] → (∀ part ∈ parts.fragment, '/' ∉ part) →
          (got = parts.rooted.reading ↔ parts.query.getD [] = [])) := by
  intro got
  have noSlash : '/' ∉ authority.toList := fun member => by
    have mark := plain '/' member
    simp [isMark] at mark
  have read : got = split (String.ofList ('/' :: (cut '/' tail.toList).2.getD [])) := by
    refine split_congr ?_
    rw [String.toList_append, String.toList_append, List.append_assoc, origin_scheme known,
      behindAuthority_append noSlash, behindAuthority_eq, String.toList_ofList]
    exact (origin_eq (by rintro _ ⟨⟩; decide)).symm
  obtain ⟨parts, text⟩ := Parts.exists_text tail.toList
  have alone : origin tail.toList = parts.text := by
    rw [text]
    refine origin_eq fun c first => ?_
    rintro rfl
    exact absurd (begins 'h' first) (by decide)
  rw [← text] at begins
  refine ⟨read, parts, text, split_eq alone, ?_, ?_⟩
  · rintro (present | empty)
    · rw [read, ← text, parts.rooted_of_path begins present]
    · have nothing : parts.text = [] := by rw [text, empty, String.toList_empty]
      rw [read, ← text, parts.rooted_of_empty nothing]
  · intro missing fragment
    rw [read, ← text]
    exact parts.rooted_of_query missing fragment

/-- A query that holds a path: the path is taken from it, and the query is lost. -/
theorem split_absolute_inside_query :
    (∀ c ∈ "example.com".toList, isMark c = false) ∧
      (∀ c ∈ "?next=/admin".toList.head?, isMark c = true) ∧
      split ("http://" ++ "example.com" ++ "?next=/admin") = ("/admin", "") ∧
      split "?next=/admin" = ("", "next=/admin") := by
  have plain : ∀ c ∈ "example.com".toList, isMark c = false := by simp [isMark]
  have begins : ∀ c ∈ "?next=/admin".toList.head?, isMark c = true := by simp [isMark]
  refine ⟨plain, begins, ?_, by decide +kernel⟩
  rw [(split_absolute (.inl rfl) plain begins).1]
  decide +kernel

end EmbeddedHttp.Target
