/-
# EmbeddedHttp.Text.Blank -- white space in text

The characters with the Unicode property White_Space, and trimming by them.
Status lines and header values given by applications are trimmed this way,
whereas octets on the wire are trimmed by ASCII blanks only (`Bytes.trimBlanks`).
-/
namespace EmbeddedHttp.Text

set_option autoImplicit false

/-- The Unicode property White_Space. -/
def isBlank (c : Char) : Bool :=
  let n := c.toNat
  (9 ≤ n && n ≤ 13) || n == 0x20 || n == 0x85 || n == 0xA0 || n == 0x1680 ||
    (0x2000 ≤ n && n ≤ 0x200A) || n == 0x2028 || n == 0x2029 || n == 0x202F ||
    n == 0x205F || n == 0x3000

/-- The text without the white space at its two ends, as characters. -/
def trimChars (s : List Char) : List Char :=
  ((s.dropWhile isBlank).reverse.dropWhile isBlank).reverse

/-- The text without the white space at its two ends. -/
def trim (s : String) : String :=
  String.ofList (trimChars s.toList)

/-- Equality up to the case of ASCII letters. -/
def sameIgnoringCase (a b : String) : Bool :=
  a.toList.map Char.toLower == b.toList.map Char.toLower

/-- Does one of the characters of `s` satisfy `p`? -/
def has (s : String) (p : Char → Bool) : Bool :=
  s.toList.any p

/-- Line ends may stand neither in a status line nor in a header. -/
def isLineEnd (c : Char) : Bool :=
  c == '\r' || c == '\n'

/-- The part of `s` before its first `c`, and the part after it when there is one. -/
def cut (c : Char) : List Char → List Char × Option (List Char)
  | [] => ([], none)
  | d :: rest =>
      if d == c then ([], some rest)
      else ((d :: (cut c rest).1), (cut c rest).2)

/-- A part that stands behind its mark, when there is one. -/
def marked (c : Char) : Option (List Char) → List Char
  | none => []
  | some part => c :: part

/-- Cutting loses nothing but the mark. -/
theorem marked_cut (c : Char) (s : List Char) : (cut c s).1 ++ marked c (cut c s).2 = s := by
  induction s with
  | nil => rfl
  | cons d rest ih =>
      rw [cut]
      split
      · rename_i same
        rw [beq_iff_eq.1 same]
        rfl
      · exact congrArg (d :: ·) ih

/-- The mark does not stand in front of where the text is cut. -/
theorem cut_absent (c : Char) (s : List Char) : c ∉ (cut c s).1 := by
  induction s with
  | nil => simp [cut]
  | cons d rest ih =>
      rw [cut]
      split
      · simp
      · rename_i other
        intro member
        rcases List.mem_cons.1 member with rfl | member
        · exact other (beq_self_eq_true c)
        · exact ih member

/-- A text is cut at its first mark. -/
theorem cut_marked {c : Char} {front : List Char} (absent : c ∉ front)
    (back : Option (List Char)) : cut c (front ++ marked c back) = (front, back) := by
  induction front with
  | nil => cases back <;> simp [marked, cut]
  | cons d rest ih =>
      obtain ⟨other, further⟩ := not_or.1 (mt List.mem_cons.2 absent)
      rw [List.cons_append, cut, if_neg (by simpa using Ne.symm other), ih further]

end EmbeddedHttp.Text
