/-
# EmbeddedHttp.Message.Chunk -- a body in chunks

A chunk is a hexadecimal size, an optional extension that is passed over, a line
end, that many octets, and a line end.  A chunk of size zero ends the body; the
trailer lines behind it are passed over up to an empty one.  `Place.step` takes
one octet, except that the data of a chunk is taken in whole pieces.
-/
import EmbeddedHttp.Message.Event

namespace EmbeddedHttp.Chunk

set_option autoImplicit false

/-- The longest trailer line. -/
def maxTrailerLine : Nat := 8 * 1024

/-- Where in a chunked body the next octet falls. -/
inductive Place where
  /-- In the size: its value and number of digits so far, and whether the
  extension has begun. -/
  | size (value digits : Nat) (extension : Bool)
  | sizeFeed (value : Nat)
  /-- In the data, with this many octets to come. -/
  | data (left : Nat)
  | dataReturn
  | dataFeed
  /-- In a trailer line, with its length so far. -/
  | trailer (length : Nat)
  | trailerFeed (length : Nat)
  deriving DecidableEq, Repr

/-- What one octet leads to. -/
inductive Move where
  | next (place : Place)
  /-- The body is over. -/
  | finished
  | malformed (cause : Malformed)
  /-- A trailer line is too long. -/
  | tooLong
  deriving DecidableEq, Repr

/-- Before the first size. -/
def Place.start : Place := .size 0 0 false

/-- One octet outside chunk data. -/
def Place.step (place : Place) (b : UInt8) : Move :=
  match place with
  | .size value digits extension =>
      if b == Bytes.cr && 0 < digits then .next (.sizeFeed value)
      else if extension then .next place
      else if (b == 59 || b == Bytes.space || b == Bytes.tab) && 0 < digits then
        .next (.size value digits true)
      else match Bytes.hexValue? b with
        | none => .malformed .chunkSize
        | some digit =>
            if Bytes.wordBound / 16 ≤ value then .malformed .chunkSizeOverflow
            else .next (.size (value * 16 + digit) (digits + 1) false)
  | .sizeFeed value =>
      if b == Bytes.lf then
        if value = 0 then .next (.trailer 0) else .next (.data value)
      else .malformed .chunkFraming
  | .data left => .next (.data left)
  | .dataReturn =>
      if b == Bytes.cr then .next .dataFeed else .malformed .chunkFraming
  | .dataFeed =>
      if b == Bytes.lf then .next .start else .malformed .chunkFraming
  | .trailer length =>
      if b == Bytes.cr then .next (.trailerFeed length)
      else if maxTrailerLine ≤ length then .tooLong
      else .next (.trailer (length + 1))
  | .trailerFeed length =>
      if b == Bytes.lf then
        if length = 0 then .finished else .next (.trailer 0)
      else .malformed .chunkFraming

/-- The place behind `taken` of `left` octets of data. -/
def Place.afterData (left taken : Nat) : Place :=
  if left ≤ taken then .dataReturn else .data (left - taken)

end EmbeddedHttp.Chunk
