/-
# EmbeddedHttp.Message.Head -- the grammar of a request head

A request head is a start line, field lines and an empty line.  `Scan.step` takes
one octet and says whether more is wanted, the head is complete, or no
continuation can make it well formed.  Since the scan depends on the octets
alone, a head may arrive in any pieces, and a fault shows at the first octet that
rules every continuation out.

The start line is a method of token characters, one space, a target of visible
or non-ASCII octets that is valid UTF-8, one space, the version, and a line end.
A field is a name of token characters, a colon at once after it, and a value
whose surrounding spaces and tabs are not part of it.  Lines end in a line feed
that may follow a carriage return; they are never folded.
-/
import EmbeddedHttp.Message.Event
import EmbeddedHttp.Text.Utf8

namespace EmbeddedHttp.Head

set_option autoImplicit false

/-- The most fields that one head may hold. -/
def maxFields : Nat := 128

/-- The most octets that one head may take. -/
def maxSize : Nat := 64 * 1024

/-! ## Classes of octets -/

/-- A token character: a letter, a digit, or one of the marks allowed in names. -/
def isToken (b : UInt8) : Bool :=
  (48 ≤ b && b ≤ 57) || (65 ≤ b && b ≤ 90) || (94 ≤ b && b ≤ 122) ||
    b == 33 || (35 ≤ b && b ≤ 39) || b == 42 || b == 43 || b == 45 || b == 46 ||
    b == 124 || b == 126

/-- An octet of a target: visible ASCII, or not ASCII. -/
def isTargetOctet (b : UInt8) : Bool :=
  (33 ≤ b && b ≤ 126) || 128 ≤ b

/-- An octet of a field value: a tab, printable ASCII, or not ASCII. -/
def isValueOctet (b : UInt8) : Bool :=
  b == 9 || (32 ≤ b && b ≤ 126) || 128 ≤ b

/-- The two octets trimmed around a value. -/
def isSpacing (b : UInt8) : Bool :=
  b == 32 || b == 9

/-- The part of a version before its last digit. -/
def versionStem : Bytes := [72, 84, 84, 80, 47, 49, 46]

/-! ## The scan -/

/-- A head as it was sent. -/
structure Raw where
  method : Bytes
  target : Bytes
  version : Version
  fields : List (Bytes × Bytes)
  deriving DecidableEq, Repr

/-- Where in the head the next octet falls. -/
inductive Place where
  | method
  | target
  /-- In the version, with what is still to come of its stem. -/
  | version (stem : Bytes)
  /-- Behind the version; then behind its carriage return. -/
  | startLineEnd
  | startLineFeed
  /-- Before a field or the empty line; then behind the carriage return of the
  empty line. -/
  | lineStart
  | headFeed
  | name
  /-- Between the colon and the value. -/
  | beforeValue
  | value
  /-- Behind the carriage return of a field. -/
  | fieldFeed
  deriving DecidableEq, Repr

/-- A scan under way: its place, the parts that are finished, the name of the
field at hand, and the octets of the part at hand in reverse. -/
structure Scan where
  place : Place
  method : Bytes
  target : Bytes
  version : Version
  /-- The finished fields, last first. -/
  fields : List (Bytes × Bytes)
  name : Bytes
  part : Bytes
  deriving DecidableEq, Repr

/-- What one octet leads to. -/
inductive Move where
  | more (scan : Scan)
  | complete (head : Raw)
  | malformed (cause : Malformed)
  | tooManyFields
  deriving DecidableEq, Repr

namespace Scan

/-- Nothing seen yet. -/
def start : Scan := ⟨.method, [], [], .http11, [], [], []⟩

/-- The head that the finished parts make up. -/
def head (scan : Scan) : Raw :=
  ⟨scan.method, scan.target, scan.version, scan.fields.reverse⟩

/-- One more octet of the part at hand. -/
def keep (scan : Scan) (place : Place) (b : UInt8) : Scan :=
  { scan with place := place, part := b :: scan.part }

/-- The end of a field line: the value loses the spacing behind it. -/
def endField (scan : Scan) : Move :=
  if maxFields ≤ scan.fields.length then .tooManyFields
  else
    let value := (scan.part.dropWhile isSpacing).reverse
    .more { scan with
      place := .lineStart, fields := (scan.name, value) :: scan.fields, name := [], part := [] }

/-- One octet. -/
def step (scan : Scan) (b : UInt8) : Move :=
  match scan.place with
  | .method =>
      if isToken b then .more (scan.keep .method b)
      else if b == Bytes.space && !scan.part.isEmpty then
        .more { scan with place := .target, method := scan.part.reverse, part := [] }
      else .malformed .head
  | .target =>
      if isTargetOctet b then .more (scan.keep .target b)
      else if b == Bytes.space && !scan.part.isEmpty && Utf8.valid scan.part.reverse then
        .more { scan with
          place := .version versionStem, target := scan.part.reverse, part := [] }
      else .malformed .head
  | .version (wanted :: stem) =>
      if b == wanted then .more { scan with place := .version stem }
      else .malformed .version
  | .version [] =>
      if b == 48 then .more { scan with place := .startLineEnd, version := .http10 }
      else if b == 49 then .more { scan with place := .startLineEnd, version := .http11 }
      else .malformed .version
  | .startLineEnd =>
      if b == Bytes.cr then .more { scan with place := .startLineFeed }
      else if b == Bytes.lf then .more { scan with place := .lineStart }
      else .malformed .head
  | .startLineFeed =>
      if b == Bytes.lf then .more { scan with place := .lineStart } else .malformed .head
  | .lineStart =>
      if b == Bytes.cr then .more { scan with place := .headFeed }
      else if b == Bytes.lf then .complete scan.head
      else if isToken b then .more (scan.keep .name b)
      else .malformed .head
  | .headFeed =>
      if b == Bytes.lf then .complete scan.head else .malformed .head
  | .name =>
      if isToken b then .more (scan.keep .name b)
      else if b == 58 then
        .more { scan with place := .beforeValue, name := scan.part.reverse, part := [] }
      else .malformed .head
  | .beforeValue =>
      if isSpacing b then .more scan
      else if isValueOctet b then .more (scan.keep .value b)
      else if b == Bytes.cr then .more { scan with place := .fieldFeed }
      else if b == Bytes.lf then scan.endField
      else .malformed .head
  | .value =>
      if isValueOctet b then .more (scan.keep .value b)
      else if b == Bytes.cr then .more { scan with place := .fieldFeed }
      else if b == Bytes.lf then scan.endField
      else .malformed .head
  | .fieldFeed =>
      if b == Bytes.lf then scan.endField else .malformed .head

end Scan

end EmbeddedHttp.Head
