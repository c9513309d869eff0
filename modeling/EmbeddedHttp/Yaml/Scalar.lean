/-
# EmbeddedHttp.Yaml.Scalar -- the five styles of scalar

A scalar is plain, quoted in one of two ways, or a block that is literal or
folded.  White space inside a plain or quoted scalar is folded (`Fold`): blanks
within a line stay, one break becomes a space, and of more breaks all but the
first stay.  In a block the lines end where the indentation does; its header says
how the breaks at the end are kept.
-/
import EmbeddedHttp.Yaml.Cursor
import EmbeddedHttp.Text.Utf8

namespace EmbeddedHttp.Yaml

set_option autoImplicit false

/-- The styles. -/
inductive Style where
  | plain
  | singleQuoted
  | doubleQuoted
  | literal
  | folded
  deriving DecidableEq, Repr

/-! ## Folding -/

/-- White space between two words: blanks within a line, or the first break and the
breaks after it. -/
structure Fold where
  blanks : List Char
  first : List Char
  further : List Char
  broken : Bool

namespace Fold

/-- No white space. -/
def none : Fold := ⟨[], [], [], false⟩

/-- What it amounts to. -/
def joined (fold : Fold) : List Char :=
  if !fold.broken then fold.blanks
  else if fold.first.head? == some '\n' then
    (if fold.further.isEmpty then [' '] else fold.further)
  else fold.first ++ fold.further

/-- Take up the white space that is next.  With an indentation, a tab in front of it
is refused.  The fuel bounds the number of characters. -/
def gather (indentation : Option Nat) : Nat → Fold → Cursor → Except Malformed (Fold × Cursor)
  | 0, fold, cursor => .ok (fold, cursor)
  | fuel + 1, fold, cursor =>
      match cursor.rest with
      | [] => .ok (fold, cursor)
      | c :: _ =>
          if isBlank c then
            if fold.broken && c == '\t' && indentation.any (cursor.column < ·) then
              .error .tabInIndentation
            else
              gather indentation fuel
                (if fold.broken then fold else { fold with blanks := fold.blanks ++ [c] })
                (cursor.skip 1)
          else if isBreak c then
            let read := cursor.readBreak
            gather indentation fuel
              (if fold.broken then { fold with further := fold.further ++ read.1 }
               else ⟨[], read.1, [], true⟩)
              read.2
          else .ok (fold, cursor)

end Fold

/-! ## Quoted scalars -/

/-- What an escape of one character stands for. -/
def simpleEscape? (c : Char) : Option Char :=
  match c with
  | '0' => some '\x00'
  | 'a' => some '\x07'
  | 'b' => some '\x08'
  | 't' | '\t' => some '\t'
  | 'n' => some '\n'
  | 'v' => some '\x0b'
  | 'f' => some '\x0c'
  | 'r' => some '\r'
  | 'e' => some '\x1b'
  | ' ' => some ' '
  | '"' => some '"'
  | '/' => some '/'
  | '\\' => some '\\'
  | 'N' => some '\u0085'
  | '_' => some '\u00a0'
  | 'L' => some '\u2028'
  | 'P' => some '\u2029'
  | _ => none

/-- How many hexadecimal digits follow the letter of an escape. -/
def escapeWidth? (c : Char) : Option Nat :=
  match c with
  | 'x' => some 2
  | 'u' => some 4
  | 'U' => some 8
  | _ => none

/-- The number that hexadecimal digits denote. -/
def hexNumber? (digits : List Char) : Option Nat :=
  digits.foldl (fun n c => n.bind fun n => (hexValue? c).map (16 * n + ·)) (some 0)

/-- The character of an escape, and the place behind it. -/
def readEscape (cursor : Cursor) : Except Malformed (Char × Cursor) :=
  match cursor.at? 1 with
  | none => .error .badEscape
  | some c =>
      match simpleEscape? c, escapeWidth? c with
      | some meant, _ => .ok (meant, cursor.skip 2)
      | none, none => .error .badEscape
      | none, some width =>
          let digits := (cursor.rest.drop 2).take width
          if digits.length < width then .error .badEscape
          else
            match hexNumber? digits with
            | none => .error .badEscape
            | some n =>
                if h : n.isValidChar then .ok (Char.ofNatAux n h, cursor.skip (2 + width))
                else .error .badEscape

/-- Read a quoted scalar up to white space or its closing quote: the characters,
last one first, and whether it stopped behind an escaped break.  The fuel bounds
the number of characters. -/
def readQuotedWord (single : Bool) :
    Nat → List Char → Cursor → Except Malformed (List Char × Bool × Cursor)
  | 0, word, cursor => .ok (word, false, cursor)
  | fuel + 1, word, cursor =>
      match cursor.rest with
      | [] => .ok (word, false, cursor)
      | c :: after =>
          if isBlank c || isBreak c then .ok (word, false, cursor)
          else if single then
            if c != '\'' then readQuotedWord single fuel (c :: word) (cursor.skip 1)
            else if after.head? == some '\'' then
              readQuotedWord single fuel ('\'' :: word) (cursor.skip 2)
            else .ok (word, false, cursor)
          else if c == '"' then .ok (word, false, cursor)
          else if c == '\\' then
            if after.head?.any isBreak then .ok (word, true, (cursor.skip 1).readBreak.2)
            else
              match readEscape cursor with
              | .error fault => .error fault
              | .ok (meant, cursor) => readQuotedWord single fuel (meant :: word) cursor
          else readQuotedWord single fuel (c :: word) (cursor.skip 1)

/-- Read a quoted scalar behind its opening quote.  Every round passes over
something, so the characters left bound the number of rounds. -/
def readQuotedAux (single : Bool) :
    Nat → List Char → Cursor → Except Malformed (List Char × Cursor)
  | 0, _, _ => .error .unterminatedScalar
  | fuel + 1, text, cursor => do
      if cursor.isAtDocumentMark || cursor.isEnd then throw .unterminatedScalar
      let read ← readQuotedWord single (cursor.rest.length + 1) text cursor
      let cursor := read.2.2
      if cursor.isAt (if single then '\'' else '"') then
        return (read.1.reverse, cursor.skip 1)
      let gathered ← Fold.gather none (cursor.rest.length + 1)
        { Fold.none with broken := read.2.1 } cursor
      readQuotedAux single fuel (gathered.1.joined.reverse ++ read.1) gathered.2

/-- Read a quoted scalar. -/
def readQuoted (single : Bool) (cursor : Cursor) : Except Malformed (List Char × Cursor) :=
  readQuotedAux single (cursor.rest.length + 1) [] (cursor.skip 1)

/-! ## Plain scalars -/

/-- The characters that part the entries of flow collections. -/
def isFlowMark (c : Char) : Bool := c == ',' || c == '[' || c == ']' || c == '{' || c == '}'

/-- The word that is next in a plain scalar.  In a flow collection a colon right in
front of one of its marks is refused. -/
def plainWord (inFlow : Bool) : List Char → Except Malformed (List Char)
  | [] => .ok []
  | c :: rest =>
      if isBlank c || isBreak c then .ok []
      else if inFlow && c == ':' && rest.head?.any (fun d => isFlowMark d || d == '?') then
        .error .unexpectedCharacter
      else if c == ':' && rest.head?.all (fun d => isBlank d || isBreak d) then .ok []
      else if inFlow && isFlowMark c then .ok []
      else (plainWord inFlow rest).map (c :: ·)

/-- A plain scalar: its text, the place behind it, and whether that is on a new
line. -/
structure PlainScalar where
  text : List Char
  cursor : Cursor
  onNewLine : Bool

/-- Read a plain scalar that belongs to what is indented as far as `bound`, from
words read so far, last character first.  Every round passes over something. -/
def readPlainAux (inFlow : Bool) (bound : Nat) :
    Nat → List Char → Fold → Cursor → Except Malformed PlainScalar
  | 0, text, fold, cursor => .ok ⟨text.reverse, cursor, fold.broken⟩
  | fuel + 1, text, fold, cursor => do
      if cursor.isAtDocumentMark || cursor.isAt '#' then
        return ⟨text.reverse, cursor, fold.broken⟩
      let word ← plainWord inFlow cursor.rest
      if word.isEmpty then return ⟨text.reverse, cursor, fold.broken⟩
      let text := word.reverse ++ fold.joined.reverse ++ text
      let cursor := cursor.skip word.length
      if cursor.isEnd || !cursor.isGap 0 then return ⟨text.reverse, cursor, false⟩
      let gathered ← Fold.gather (some bound) (cursor.rest.length + 1) Fold.none cursor
      if !inFlow && gathered.2.column < bound then
        return ⟨text.reverse, gathered.2, gathered.1.broken⟩
      readPlainAux inFlow bound fuel text gathered.1 gathered.2

/-- Read a plain scalar. -/
def readPlain (inFlow : Bool) (bound : Nat) (cursor : Cursor) : Except Malformed PlainScalar :=
  readPlainAux inFlow bound (cursor.rest.length + 1) [] Fold.none cursor

/-! ## Blocks -/

/-- What becomes of the breaks at the end of a block. -/
inductive Chomping where
  /-- The last line keeps its break. -/
  | clip
  /-- None is kept. -/
  | strip
  /-- All are kept. -/
  | keep
  deriving DecidableEq, Repr

/-- The header of a block: what becomes of the last breaks, and how much deeper than
its surroundings it is indented, if that is said. -/
structure BlockHeader where
  chomping : Chomping
  increment : Option Nat

/-- A mark of chomping. -/
def chomping? (c : Char) : Option Chomping :=
  match c with
  | '+' => some .keep
  | '-' => some .strip
  | _ => none

/-- A digit other than zero. -/
def increment? (c : Char) : Option Nat :=
  if c.isDigit && c != '0' then some (c.toNat - '0'.toNat) else none

/-- Read the header of a block behind its indicator, to the end of the line. -/
def readBlockHeader (cursor : Cursor) : Except Malformed (BlockHeader × Cursor) := do
  let first := cursor.at? 0
  let second := cursor.at? 1
  let header : BlockHeader × Nat :=
    match first.bind chomping?, first.bind increment? with
    | some chomping, _ =>
        match second.bind increment? with
        | some n => (⟨chomping, some n⟩, 2)
        | none => (⟨chomping, none⟩, 1)
    | none, some n =>
        match second.bind chomping? with
        | some chomping => (⟨chomping, some n⟩, 2)
        | none => (⟨.clip, some n⟩, 1)
    | none, none => (⟨.clip, none⟩, 0)
  let cursor := (cursor.skip header.2).skipBlanks.skipComment
  if cursor.isLineEnd then return (header.1, cursor.skipBreak) else throw .badBlockHeader

/-- Pass over indentation and empty lines: the breaks, the deepest column reached,
and the place of the next line with something on it.  Without an indentation all
spaces are indentation.  The fuel bounds the number of lines. -/
def readEmptyLines (indentation : Option Nat) :
    Nat → List Char → Nat → Cursor → Except Malformed (List Char × Nat × Cursor)
  | 0, breaks, deepest, cursor => .ok (breaks, deepest, cursor)
  | fuel + 1, breaks, deepest, cursor =>
      let spaces := (cursor.rest.takeWhile (· == ' ')).length
      let cursor := cursor.skip (match indentation with
        | some n => min spaces (n - cursor.column)
        | none => spaces)
      let deepest := max deepest cursor.column
      if cursor.isAt '\t' && indentation.all (cursor.column < ·) then .error .tabInIndentation
      else if cursor.isEnd || !cursor.isLineEnd then .ok (breaks, deepest, cursor)
      else
        let read := cursor.readBreak
        readEmptyLines indentation fuel (breaks ++ read.1) deepest read.2

/-- What was read of a block: its text, last character first, the break behind the
last line, the empty lines behind that, and whether the last line began with a
blank. -/
structure BlockText where
  text : List Char
  lineBreak : List Char
  emptyLines : List Char
  beganBlank : Bool

/-- Read the lines of a block.  In a folded one a break between two lines that do
not begin with a blank is folded.  Every round reads a line. -/
def readBlockLines (literal : Bool) (indentation : Nat) :
    Nat → BlockText → Cursor → Except Malformed (BlockText × Cursor)
  | 0, block, cursor => .ok (block, cursor)
  | fuel + 1, block, cursor => do
      if cursor.column != indentation || cursor.isEnd then return (block, cursor)
      let beginsBlank := (cursor.at? 0).any isBlank
      let isFolded := !literal && block.lineBreak.head? == some '\n' && !block.beganBlank &&
        !beginsBlank
      let gap :=
        if isFolded then (if block.emptyLines.isEmpty then [' '] else block.emptyLines)
        else block.lineBreak ++ block.emptyLines
      let line := cursor.takeWhile fun c => !isBreak c
      let lineBreak := line.2.readBreak
      let empty ← readEmptyLines (some indentation) (lineBreak.2.rest.length + 1) [] 0 lineBreak.2
      readBlockLines literal indentation fuel
        { text := line.1.reverse ++ gap.reverse ++ block.text
          lineBreak := lineBreak.1
          emptyLines := empty.1
          beganBlank := beginsBlank }
        empty.2.2

/-- Read a block whose surroundings are indented as far as `bound`. -/
def readBlock (literal : Bool) (bound : Nat) (cursor : Cursor) :
    Except Malformed (List Char × Cursor) := do
  let header ← readBlockHeader (cursor.skip 1)
  let said := header.1.increment.map (bound - 1 + ·)
  let empty ← readEmptyLines said (header.2.rest.length + 1) [] 0 header.2
  let indentation := said.getD (max (max empty.2.1 bound) 1)
  let read ← readBlockLines literal indentation (empty.2.2.rest.length + 1)
    ⟨[], [], empty.1, false⟩ empty.2.2
  let block := read.1
  let ending := match header.1.chomping with
    | .strip => []
    | .clip => block.lineBreak
    | .keep => block.lineBreak ++ block.emptyLines
  return (block.text.reverse ++ ending, read.2)

end EmbeddedHttp.Yaml
