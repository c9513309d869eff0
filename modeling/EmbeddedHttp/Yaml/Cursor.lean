/-
# EmbeddedHttp.Yaml.Cursor -- a place in a text, and the classes of characters

A cursor is what is left of a text, with the line and column reached.  Columns count
characters; the distance from the beginning of the text counts octets.  A line feed,
a carriage return or both together end a line, and so do the next-line character and
the two separators of Unicode; only the separators are kept as they are, every other
break counts as a line feed.
-/
namespace EmbeddedHttp.Yaml

set_option autoImplicit false

/-- Why a text is no document. -/
inductive Malformed where
  | controlCharacter
  | badDirective
  | badAnchor
  | badTag
  | badEscape
  | badBlockHeader
  | tabInIndentation
  | unterminatedScalar
  | unexpectedCharacter
  /-- What had to be a key has no colon. -/
  | missingColon
  /-- A block collection where none may begin. -/
  | misplacedBlock
  | unexpectedToken
  | unknownHandle
  | unknownAnchor
  | manyDocuments
  deriving DecidableEq, Repr

/-! ## Characters -/

/-- May the character stand in a text at all? -/
def isAllowed (c : Char) : Bool :=
  let n := c.toNat
  n == 0x09 || n == 0x0A || n == 0x0D || (0x20 ≤ n && n ≤ 0x7E) || n == 0x85 ||
    (0xA0 ≤ n && n ≤ 0xFFFD) || 0x10000 ≤ n

/-- Does it end a line? -/
def isBreak (c : Char) : Bool :=
  c == '\n' || c == '\r' || c == '\u0085' || c == '\u2028' || c == '\u2029'

/-- A space or a tab. -/
def isBlank (c : Char) : Bool := c == ' ' || c == '\t'

/-- A letter, a digit, or one of the two marks that names may hold. -/
def isWord (c : Char) : Bool := c.isAlphanum || c == '_' || c == '-'

/-- The value of a hexadecimal digit. -/
def hexValue? (c : Char) : Option Nat :=
  if c.isDigit then some (c.toNat - '0'.toNat)
  else if 'a' ≤ c && c ≤ 'f' then some (c.toNat - 'a'.toNat + 10)
  else if 'A' ≤ c && c ≤ 'F' then some (c.toNat - 'A'.toNat + 10)
  else none

/-- The mark of the octet order, which may stand in front of a line. -/
def orderMark : Char := '\uFEFF'

/-- How many octets the UTF-8 form of some characters has. -/
def octetCount : List Char → Nat
  | [] => 0
  | c :: rest => c.utf8Size + octetCount rest

/-! ## Places -/

/-- What is left of a text, and how far it was read. -/
structure Cursor where
  rest : List Char
  /-- How many octets were passed over. -/
  index : Nat
  line : Nat
  column : Nat

namespace Cursor

/-- The beginning of a text. -/
def ofList (text : List Char) : Cursor := ⟨text, 0, 0, 0⟩

/-- The character at a distance. -/
def at? (cursor : Cursor) (n : Nat) : Option Char := cursor.rest[n]?

/-- Is this character next? -/
def isAt (cursor : Cursor) (c : Char) : Bool := cursor.at? 0 == some c

/-- Is the end of the text reached? -/
def isEnd (cursor : Cursor) : Bool := cursor.rest.isEmpty

/-- Is the character at a distance a blank, a break, or past the end? -/
def isGap (cursor : Cursor) (n : Nat) : Bool :=
  match cursor.at? n with
  | none => true
  | some c => isBlank c || isBreak c

/-- Is the next character a break, or past the end? -/
def isLineEnd (cursor : Cursor) : Bool :=
  match cursor.at? 0 with
  | none => true
  | some c => isBreak c

/-- Pass over `n` characters of a line. -/
def skip (cursor : Cursor) (n : Nat) : Cursor :=
  { cursor with
    rest := cursor.rest.drop n
    index := cursor.index + octetCount (cursor.rest.take n)
    column := cursor.column + n }

/-- Pass over a break: as it is kept, and the place behind it. -/
def readBreak (cursor : Cursor) : List Char × Cursor :=
  match cursor.rest with
  | [] => ([], cursor)
  | '\r' :: '\n' :: rest => (['\n'], ⟨rest, cursor.index + 2, cursor.line + 1, 0⟩)
  | c :: rest =>
      (if c == '\u2028' || c == '\u2029' then [c] else ['\n'],
        ⟨rest, cursor.index + c.utf8Size, cursor.line + 1, 0⟩)

/-- Take the characters of a line as long as they are in a class. -/
def takeWhile (cursor : Cursor) (isIn : Char → Bool) : List Char × Cursor :=
  let taken := cursor.rest.takeWhile isIn
  (taken, cursor.skip taken.length)

/-- Pass over blanks. -/
def skipBlanks (cursor : Cursor) : Cursor := (cursor.takeWhile isBlank).2

/-- Pass over a comment, if one is next. -/
def skipComment (cursor : Cursor) : Cursor :=
  if cursor.isAt '#' then (cursor.takeWhile fun c => !isBreak c).2 else cursor

/-- Pass over the mark of the octet order, if it begins the line. -/
def skipOrderMark (cursor : Cursor) : Cursor :=
  if cursor.column == 0 && cursor.isAt orderMark then cursor.skip 1 else cursor

/-- Pass over a break, if one is next. -/
def skipBreak (cursor : Cursor) : Cursor :=
  if cursor.isLineEnd then cursor.readBreak.2 else cursor

/-- Is this mark of three characters next, at the beginning of a line and followed
by a gap? -/
def isAtMark (cursor : Cursor) (c : Char) : Bool :=
  cursor.column == 0 && cursor.rest.take 3 == [c, c, c] && cursor.isGap 3

/-- Is a mark between documents next? -/
def isAtDocumentMark (cursor : Cursor) : Bool := cursor.isAtMark '-' || cursor.isAtMark '.'

end Cursor

end EmbeddedHttp.Yaml
