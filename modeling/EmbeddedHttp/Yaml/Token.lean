/-
# EmbeddedHttp.Yaml.Token -- the marks that structure a document

Tokens are the marks of a document together with those that only indentation
shows: where a block collection begins and ends.  A mapping key without a mark of
its own is recognised by the colon behind it, so whatever may turn out to be one
remembers its position, and the marks that belong in front of it are put there
once the colon comes.  Such a key is on one line and not longer than
`keyReach` octets; one that begins a line of a block mapping has to have its
colon.
-/
import EmbeddedHttp.Yaml.Scalar
import EmbeddedHttp.Bytes

namespace EmbeddedHttp.Yaml

set_option autoImplicit false

/-- The marks of a document. -/
inductive Token where
  | version (major minor : Nat)
  | handle (name : List Char) (expansion : Bytes)
  | documentStart
  | documentEnd
  | blockSequenceStart
  | blockMappingStart
  | blockEnd
  | flowSequenceStart
  | flowSequenceEnd
  | flowMappingStart
  | flowMappingEnd
  | blockEntry
  | flowEntry
  | key
  | value
  | aliasTo (name : List Char)
  | anchor (name : List Char)
  | tag (handle : List Char) (suffix : Bytes)
  | scalar (text : List Char) (style : Style)
  | streamEnd
  deriving DecidableEq, Repr

/-! ## Directives, anchors, tags -/

/-- Read the name of an anchor or alias behind its mark. -/
def readAnchorName (cursor : Cursor) : Except Malformed (List Char × Cursor) :=
  let read := cursor.takeWhile isWord
  let isFollowed := read.2.isGap 0 || (read.2.at? 0).any ("?:,]\x7d%@`".toList.contains ·)
  if read.1.isEmpty || !isFollowed then .error .badAnchor else .ok read

/-- May the character stand in a tag?  In a verbatim tag the marks of flow
collections may too. -/
def isTagChar (verbatim : Bool) (c : Char) : Bool :=
  isWord c || ";/?:@&=+$.%!~*'()".toList.contains c || (verbatim && ",[]".toList.contains c)

/-- How many octets follow the first one of a character.  Whether the character
exists is not looked at. -/
def octetsOwed? (first : UInt8) : Option Nat :=
  if first < 0x80 then some 0
  else if first < 0xC0 then none
  else if first < 0xE0 then some 1
  else if first < 0xF0 then some 2
  else if first < 0xF8 then some 3
  else none

/-- How many octets are still owed behind an octet, when `owed` were owed in front of
it. -/
def owedBehind? (owed : Nat) (octet : UInt8) : Option Nat :=
  match owed with
  | 0 => octetsOwed? octet
  | owed + 1 => if 0x80 ≤ octet && octet < 0xC0 then some owed else none

/-- Resolve the escapes of a tag.  An octet that is owed has to be escaped like the
one that owes it. -/
def resolveEscapes : Nat → List Char → Except Malformed Bytes
  | owed, '%' :: a :: b :: rest =>
      match hexValue? a, hexValue? b with
      | some high, some low =>
          let octet := (16 * high + low).toUInt8
          match owedBehind? owed octet with
          | some owed => (resolveEscapes owed rest).map (octet :: ·)
          | none => .error .badTag
      | _, _ => .error .badTag
  | owed, c :: rest =>
      if c == '%' || owed != 0 then .error .badTag
      else (resolveEscapes 0 rest).map (c.toNat.toUInt8 :: ·)
  | owed, [] => if owed == 0 then .ok [] else .error .badTag

/-- A tag ends in front of a zero octet. -/
def untilZero (octets : Bytes) : Bytes := octets.takeWhile (· != 0)

/-- What was read of a tag. -/
structure TagText where
  octets : Bytes
  /-- Was nothing written? -/
  isMissing : Bool
  /-- The place behind it. -/
  cursor : Cursor

/-- Read characters of a tag, with the escapes resolved. -/
def readTagChars (verbatim : Bool) (cursor : Cursor) : Except Malformed TagText := do
  let read := cursor.takeWhile (isTagChar verbatim)
  let octets ← resolveEscapes 0 read.1
  return ⟨untilZero octets, read.1.isEmpty, read.2⟩

/-- Read a tag handle: an exclamation mark, and perhaps a name and another mark. -/
def readHandle (cursor : Cursor) : Except Malformed (List Char × Cursor) :=
  if !cursor.isAt '!' then .error .badTag
  else
    let name := (cursor.skip 1).takeWhile isWord
    if name.2.isAt '!' then .ok ('!' :: name.1 ++ ['!'], name.2.skip 1)
    else .ok ('!' :: name.1, name.2)

/-- Read the handle and the suffix of a tag. -/
def readTagParts (cursor : Cursor) : Except Malformed (List Char × Bytes × Cursor) := do
  if cursor.at? 1 == some '<' then
    let read ← readTagChars true (cursor.skip 2)
    if read.isMissing || !read.cursor.isAt '>' then throw .badTag
    return ([], read.octets, read.cursor.skip 1)
  let handle ← readHandle cursor
  let suffix ← readTagChars false handle.2
  if 1 < handle.1.length && handle.1.getLast? == some '!' then
    if suffix.isMissing then throw .badTag
    return (handle.1, suffix.octets, suffix.cursor)
  let octets := Bytes.ofAscii (String.ofList (handle.1.drop 1)) ++ suffix.octets
  if octets.isEmpty then return ([], Bytes.ofAscii "!", suffix.cursor)
  else return (['!'], octets, suffix.cursor)

/-- Read a tag. -/
def readTag (inFlow : Bool) (cursor : Cursor) : Except Malformed (Token × Cursor) := do
  let parts ← readTagParts cursor
  let cursor := parts.2.2
  if (inFlow && cursor.isAt ',') || cursor.isGap 0 then
    return (.tag parts.1 parts.2.1, cursor)
  else throw .badTag

/-- Read one of the two numbers of a version. -/
def readVersionNumber (cursor : Cursor) : Except Malformed (Nat × Cursor) :=
  let digits := cursor.takeWhile Char.isDigit
  if digits.1.isEmpty || 9 < digits.1.length then .error .badDirective
  else .ok (digits.1.foldl (fun n c => 10 * n + (c.toNat - '0'.toNat)) 0, digits.2)

/-- Read a directive, to the end of its line. -/
def readDirective (cursor : Cursor) : Except Malformed (Token × Cursor) := do
  let name := (cursor.skip 1).takeWhile isWord
  if name.1.isEmpty || !name.2.isGap 0 then throw .badDirective
  let cursor := name.2.skipBlanks
  let read : Token × Cursor ←
    if name.1 == "YAML".toList then do
      let major ← readVersionNumber cursor
      if !major.2.isAt '.' then throw .badDirective
      let minor ← readVersionNumber (major.2.skip 1)
      pure (Token.version major.1 minor.1, minor.2)
    else if name.1 == "TAG".toList then do
      let handle ← readHandle cursor
      if handle.1 != ['!'] && handle.1.getLast? != some '!' then throw .badDirective
      if !(handle.2.at? 0).any isBlank then throw .badDirective
      let expansion ← readTagChars true handle.2.skipBlanks
      if expansion.isMissing || !expansion.cursor.isGap 0 then throw .badDirective
      pure (Token.handle handle.1 expansion.octets, expansion.cursor)
    else throw .badDirective
  let cursor := read.2.skipBlanks.skipComment
  if cursor.isLineEnd then return (read.1, cursor.skipBreak) else throw .badDirective

/-! ## Layout -/

/-- How many octets a key without a mark may take. -/
def keyReach : Nat := 1024

/-- Something that may turn out to be a key: whether it has to, which token it is,
and where it begins. -/
structure KeyCandidate where
  isRequired : Bool
  position : Nat
  index : Nat
  line : Nat
  column : Nat

/-- The tokens read so far, and what the next ones depend on. -/
structure Layout where
  cursor : Cursor
  tokens : List Token
  /-- The least column of what belongs to the innermost block, and to those around
  it.  Outside all blocks it is zero. -/
  bound : Nat
  bounds : List Nat
  /-- How many flow collections are open. -/
  flows : Nat
  /-- May a key without a mark begin here? -/
  keyAllowed : Bool
  /-- The candidate of each open flow collection, innermost first, and of the blocks
  around them. -/
  keys : List (Option KeyCandidate)

namespace Layout

/-- Nothing read. -/
def start (text : List Char) : Layout :=
  ⟨Cursor.ofList text, [], 0, [], 0, true, [none]⟩

/-- Is a flow collection open? -/
def inFlow (layout : Layout) : Bool := layout.flows != 0

/-- Append a token. -/
def push (layout : Layout) (token : Token) : Layout :=
  { layout with tokens := layout.tokens ++ [token] }

/-- Put a token in front of a position. -/
def insertAt (layout : Layout) (position : Nat) (token : Token) : Layout :=
  { layout with tokens := layout.tokens.take position ++ token :: layout.tokens.drop position }

/-- Forget the innermost candidate, which may not have had to be a key. -/
def dropKey (layout : Layout) : Except Malformed Layout :=
  match layout.keys with
  | some candidate :: rest =>
      if candidate.isRequired then .error .missingColon
      else .ok { layout with keys := none :: rest }
  | _ => .ok layout

/-- What comes next may turn out to be a key, if one may begin here. -/
def noteKey (layout : Layout) : Except Malformed Layout :=
  if !layout.keyAllowed then .ok layout
  else do
    let cursor := layout.cursor
    let candidate : KeyCandidate :=
      { isRequired := !layout.inFlow && layout.bound == cursor.column + 1
        position := layout.tokens.length
        index := cursor.index
        line := cursor.line
        column := cursor.column }
    let layout ← layout.dropKey
    return { layout with keys := some candidate :: layout.keys.drop 1 }

/-- Forget the candidates that are on an earlier line or too long by now. -/
def dropStaleKeys (layout : Layout) : Except Malformed Layout :=
  let isStale := fun candidate : KeyCandidate =>
    decide (candidate.line < layout.cursor.line) ||
      decide (candidate.index + keyReach < layout.cursor.index)
  if layout.keys.any fun key => key.any fun c => isStale c && c.isRequired then
    .error .missingColon
  else
    .ok { layout with
      keys := layout.keys.map fun key => if key.any isStale then none else key }

/-- Begin a block at a column if it is deeper than the ones that are open; its mark
goes to a position, or to the end. -/
def openBlock (layout : Layout) (column : Nat) (position : Option Nat) (token : Token) :
    Layout :=
  if layout.inFlow || column < layout.bound then layout
  else
    let layout :=
      { layout with bound := column + 1, bounds := layout.bound :: layout.bounds }
    match position with
    | some position => layout.insertAt position token
    | none => layout.push token

/-- End the blocks that are deeper than `limit`, given how many are open. -/
def closeBlocksAux (limit : Nat) : List Nat → Layout → Layout
  | [], layout => layout
  | outer :: bounds, layout =>
      if layout.bound ≤ limit then layout
      else
        closeBlocksAux limit bounds
          ({ layout with bound := outer, bounds := bounds }.push .blockEnd)

/-- End the blocks that are deeper than `limit`.  Inside a flow collection
indentation means nothing. -/
def closeBlocks (layout : Layout) (limit : Nat) : Layout :=
  if layout.inFlow then layout else closeBlocksAux limit layout.bounds layout

/-- Pass over blanks, comments and breaks, and the mark of the octet order in front of
each line.  Where a key may begin a tab is no blank.  The fuel bounds the number of
lines. -/
def skipGap : Nat → Layout → Layout
  | 0, layout => layout
  | fuel + 1, layout =>
      let tabs := layout.inFlow || !layout.keyAllowed
      let cursor :=
        (layout.cursor.skipOrderMark.takeWhile fun c =>
          c == ' ' || (tabs && c == '\t')).2.skipComment
      if !cursor.isEnd && cursor.isLineEnd then
        skipGap fuel
          { layout with
            cursor := cursor.skipBreak
            keyAllowed := layout.keyAllowed || !layout.inFlow }
      else { layout with cursor := cursor }

/-- Take a mark of `n` characters. -/
def mark (layout : Layout) (token : Token) (n : Nat) (keyAllowed : Bool) : Layout :=
  { layout with cursor := layout.cursor.skip n, keyAllowed := keyAllowed }.push token

/-- Take what a reader of tokens gives. -/
def take (layout : Layout) (keyAllowed : Bool) (read : Token × Cursor) : Layout :=
  { layout with cursor := read.2, keyAllowed := keyAllowed }.push read.1

/-! ### One token -/

/-- A directive. -/
def directive (layout : Layout) : Except Malformed Layout := do
  let layout ← (layout.closeBlocks 0).dropKey
  return layout.take false (← readDirective layout.cursor)

/-- A mark between documents. -/
def documentMark (layout : Layout) (token : Token) : Except Malformed Layout := do
  let layout ← (layout.closeBlocks 0).dropKey
  return layout.mark token 3 false

/-- The beginning of a flow collection. -/
def openFlow (layout : Layout) (token : Token) : Except Malformed Layout := do
  let layout ← layout.noteKey
  return { layout with flows := layout.flows + 1, keys := none :: layout.keys }.mark token 1 true

/-- The end of a flow collection. -/
def closeFlow (layout : Layout) (token : Token) : Except Malformed Layout := do
  let layout ← layout.dropKey
  let layout :=
    if layout.inFlow then
      { layout with flows := layout.flows - 1, keys := layout.keys.drop 1 }
    else layout
  return layout.mark token 1 false

/-- What parts the entries of a flow collection. -/
def flowEntry (layout : Layout) : Except Malformed Layout := do
  let layout ← layout.dropKey
  return layout.mark .flowEntry 1 true

/-- The mark of an entry of a block sequence. -/
def blockEntry (layout : Layout) : Except Malformed Layout := do
  if !layout.inFlow && !layout.keyAllowed then throw .misplacedBlock
  let layout ← (layout.openBlock layout.cursor.column none .blockSequenceStart).dropKey
  return layout.mark .blockEntry 1 true

/-- The mark of a key. -/
def keyMark (layout : Layout) : Except Malformed Layout := do
  if !layout.inFlow && !layout.keyAllowed then throw .misplacedBlock
  let layout ← (layout.openBlock layout.cursor.column none .blockMappingStart).dropKey
  return layout.mark .key 1 (!layout.inFlow)

/-- The mark of a value: it makes a key of the candidate, if there is one. -/
def valueMark (layout : Layout) : Except Malformed Layout :=
  match layout.keys with
  | some candidate :: rest =>
      let layout := { layout with keys := none :: rest }.insertAt candidate.position .key
      .ok ((layout.openBlock candidate.column (some candidate.position)
        .blockMappingStart).mark .value 1 false)
  | _ =>
      if !layout.inFlow && !layout.keyAllowed then .error .misplacedBlock
      else
        .ok ((layout.openBlock layout.cursor.column none .blockMappingStart).mark .value 1
          (!layout.inFlow))

/-- An alias or anchor. -/
def anchor (layout : Layout) (token : List Char → Token) : Except Malformed Layout := do
  let layout ← layout.noteKey
  let read ← readAnchorName (layout.cursor.skip 1)
  return layout.take false (token read.1, read.2)

/-- A tag. -/
def tag (layout : Layout) : Except Malformed Layout := do
  let layout ← layout.noteKey
  return layout.take false (← readTag layout.inFlow layout.cursor)

/-- A block scalar. -/
def blockScalar (layout : Layout) (literal : Bool) : Except Malformed Layout := do
  let layout ← layout.dropKey
  let read ← readBlock literal layout.bound layout.cursor
  return layout.take true
    (.scalar read.1 (if literal then .literal else .folded), read.2)

/-- A quoted scalar. -/
def quotedScalar (layout : Layout) (single : Bool) : Except Malformed Layout := do
  let layout ← layout.noteKey
  let read ← readQuoted single layout.cursor
  return layout.take false
    (.scalar read.1 (if single then .singleQuoted else .doubleQuoted), read.2)

/-- A plain scalar. -/
def plainScalar (layout : Layout) : Except Malformed Layout := do
  let layout ← layout.noteKey
  let read ← readPlain layout.inFlow layout.bound layout.cursor
  return layout.take read.onNewLine (.scalar read.text .plain, read.cursor)

/-- May a plain scalar begin with the character, given whether something other than
white space follows it? -/
def beginsPlain (inFlow : Bool) (c : Char) (isFollowed followedByBlank : Bool) : Bool :=
  if c == '-' then !followedByBlank
  else if c == '?' || c == ':' then !inFlow && isFollowed
  else !"-?:,[]\x7b\x7d#&*!|>'\"%@`".toList.contains c && !isBlank c && !isBreak c

/-- Read the token that begins with the character that is next. -/
def token (layout : Layout) (c : Char) : Except Malformed Layout :=
  let cursor := layout.cursor
  let isMark := layout.inFlow || cursor.isGap 1
  if cursor.column == 0 && c == '%' then layout.directive
  else if cursor.isAtMark '-' then layout.documentMark .documentStart
  else if cursor.isAtMark '.' then layout.documentMark .documentEnd
  else if c == '[' then layout.openFlow .flowSequenceStart
  else if c == '{' then layout.openFlow .flowMappingStart
  else if c == ']' then layout.closeFlow .flowSequenceEnd
  else if c == '}' then layout.closeFlow .flowMappingEnd
  else if c == ',' then layout.flowEntry
  else if c == '-' && cursor.isGap 1 then layout.blockEntry
  else if c == '?' && isMark then layout.keyMark
  else if c == ':' && isMark then layout.valueMark
  else if c == '*' then layout.anchor .aliasTo
  else if c == '&' then layout.anchor .anchor
  else if c == '!' then layout.tag
  else if c == '|' && !layout.inFlow then layout.blockScalar true
  else if c == '>' && !layout.inFlow then layout.blockScalar false
  else if c == '\'' then layout.quotedScalar true
  else if c == '"' then layout.quotedScalar false
  else if beginsPlain layout.inFlow c (!cursor.isGap 1) ((cursor.at? 1).any isBlank) then
    layout.plainScalar
  else .error .unexpectedCharacter

/-- Read all tokens that are left.  Every round passes over something. -/
def readAll : Nat → Layout → Except Malformed (List Token)
  | 0, _ => .error .unexpectedCharacter
  | fuel + 1, layout => do
      let layout ← (skipGap (layout.cursor.rest.length + 1) layout).dropStaleKeys
      match layout.cursor.rest with
      | [] =>
          let layout ← (layout.closeBlocks 0).dropKey
          return layout.tokens ++ [.streamEnd]
      | c :: _ => readAll fuel (← (layout.closeBlocks (layout.cursor.column + 1)).token c)

end Layout

/-- The tokens of a text. -/
def tokens (text : List Char) : Except Malformed (List Token) :=
  if text.all isAllowed then Layout.readAll (text.length + 1) (Layout.start text)
  else .error .controlCharacter

end EmbeddedHttp.Yaml
