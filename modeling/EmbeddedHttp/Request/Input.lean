/-
# EmbeddedHttp.Request.Input -- reading a request body

A body in memory gives out everything it has left.  A spooled body is read through a
window of `windowSize` octets: it is filled from the file when it is used up and more is
wanted, and a read that is as long as the window goes past it.  Both deliver the same
content in the same order; only what can be had at once tells them apart.
-/
import EmbeddedHttp.Request.Body
import EmbeddedHttp.Text.Utf8

namespace EmbeddedHttp

set_option autoImplicit false

/-- Where the octets of a body are read from. -/
inductive Source where
  /-- Octets in memory, and the place reached in them. -/
  | memory (octets : Bytes) (place : Nat)
  /-- The octets of a file and the offset it was read up to; the octets in the window, and
  the place reached in these. -/
  | file (octets : Bytes) (offset : Nat) (window : Bytes) (place : Nat)
  deriving DecidableEq, Repr

/-- A body being read: its whole length, and where the rest of it comes from. -/
structure Input where
  size : Nat
  source : Source
  deriving DecidableEq, Repr

/-- The ways to read. -/
inductive Read where
  /-- At most this many octets, in one go. -/
  | once (n : Nat)
  /-- As many octets as this, or what is left of them. -/
  | upTo (n : Nat)
  /-- A line, its line feed included, as text. -/
  | line
  /-- Everything up to and including an octet. -/
  | through (b : UInt8)
  /-- Look at what can be had at once, and pass over at most this much of it. -/
  | skip (n : Nat)
  /-- Everything that is left. -/
  | all
  deriving DecidableEq, Repr

/-- What reading gives. -/
inductive ReadResult where
  | bytes (data : Bytes)
  | line (size : Nat) (text : String)
  /-- A line that is not UTF-8. -/
  | badLine
  | skipped (n : Nat)
  deriving DecidableEq, Repr

namespace Source

/-- The size of the window on a file. -/
def windowSize : Nat := 8 * 1024

/-- What is not read yet. -/
def left : Source → Bytes
  | .memory octets place => octets.drop place
  | .file octets offset window place => window.drop place ++ octets.drop offset

/-- See what can be had at once.  A window that is used up is filled again. -/
def fill : Source → Bytes × Source
  | .memory octets place => (octets.drop place, .memory octets place)
  | .file octets offset window place =>
      if window.length ≤ place then
        let next := (octets.drop offset).take windowSize
        (next, .file octets (offset + next.length) next 0)
      else (window.drop place, .file octets offset window place)

/-- Pass over `n` octets of what can be had at once. -/
def consume (n : Nat) : Source → Source
  | .memory octets place => .memory octets (place + n)
  | .file octets offset window place => .file octets offset window (min (place + n) window.length)

/-- Take at most `n` octets of what can be had at once. -/
def take (n : Nat) (source : Source) : Bytes × Source :=
  let seen := source.fill.1.take n
  (seen, source.fill.2.consume seen.length)

/-- Read at most `n` octets in one go: past a window that is used up, when they would fill
it. -/
def readOnce (n : Nat) (source : Source) : Bytes × Source :=
  match source with
  | .memory .. => source.take n
  | .file octets offset window place =>
      if window.length ≤ place ∧ windowSize ≤ n then
        let data := (octets.drop offset).take n
        (data, .file octets (offset + data.length) [] 0)
      else source.take n

/-- Read `n` octets, window by window.  The fuel bounds the number of windows. -/
def readUpToAux : Nat → Nat → Source → Bytes × Source
  | 0, _, source => ([], source)
  | fuel + 1, n, source =>
      let got := source.take n
      if n = 0 then ([], source)
      else if got.1.isEmpty then got
      else
        let further := readUpToAux fuel (n - got.1.length) got.2
        (got.1 ++ further.1, further.2)

/-- Read `n` octets, or what is left when there are fewer. -/
def readUpTo (n : Nat) (source : Source) : Bytes × Source :=
  readUpToAux (source.left.length + 1) n source

/-- Read up to and including `b`, window by window.  The fuel bounds the number of
windows. -/
def readThroughAux (b : UInt8) : Nat → Source → Bytes × Source
  | 0, source => ([], source)
  | fuel + 1, source =>
      let seen := source.fill.1
      if seen.isEmpty then ([], source.fill.2)
      else match seen.findIdx? (· == b) with
        | some i => (seen.take (i + 1), source.fill.2.consume (i + 1))
        | none =>
            let further := readThroughAux b fuel (source.fill.2.consume seen.length)
            (seen ++ further.1, further.2)

/-- Read up to and including `b`, or what is left when `b` does not come. -/
def readThrough (b : UInt8) (source : Source) : Bytes × Source :=
  readThroughAux b (source.left.length + 1) source

/-- Read until nothing comes, `soFar` octets having been read: each time at most as much as
there is room for.  The fuel bounds the number of reads. -/
def readAllAux (room : Nat → Nat) : Nat → Nat → Source → Bytes × Source
  | 0, _, source => ([], source)
  | fuel + 1, soFar, source =>
      let got := source.readOnce (room soFar)
      if got.1.isEmpty then got
      else
        let further := readAllAux room fuel (soFar + got.1.length) got.2
        (got.1 ++ further.1, further.2)

/-- Everything that is left, read into a space of which `room` says how much of it is free
when so many octets were read. -/
def readAll (room : Nat → Nat) (source : Source) : Bytes × Source :=
  readAllAux room (source.left.length + 1) 0 source

/-- Space that is doubled each time it is full. -/
def doubling (soFar : Nat) : Nat := max 32 soFar

/-- Read in the given way. -/
def perform (source : Source) : Read → ReadResult × Source
  | .once n =>
      let got := source.readOnce n
      (.bytes got.1, got.2)
  | .upTo n =>
      let got := source.readUpTo n
      (.bytes got.1, got.2)
  | .line =>
      let got := source.readThrough Bytes.lf
      match Utf8.decode? got.1 with
      | some text => (.line got.1.length text, got.2)
      | none => (.badLine, got.2)
  | .through b =>
      let got := source.readThrough b
      (.bytes got.1, got.2)
  | .skip n =>
      let got := source.take n
      (.skipped got.1.length, got.2)
  | .all =>
      let got := source.readAll doubling
      (.bytes got.1, got.2)

end Source

namespace Input

/-- A body in memory, ready to be read. -/
def ofBytes (data : Bytes) : Input := ⟨data.length, .memory data 0⟩

/-- No body. -/
def empty : Input := ofBytes []

/-- The body, ready to be read from its start. -/
def ofBody (body : Body) : Input :=
  ⟨body.size, match body with
    | .memory buffer => .memory buffer.data 0
    | .spooled content => .file content 0 [] 0⟩

/-- Is the whole body empty? -/
def isEmpty (input : Input) : Bool := input.size == 0

/-- Everything that is left. -/
def readAll (input : Input) : Bytes × Input :=
  let got := input.source.readAll Source.doubling
  (got.1, { input with source := got.2 })

/-- Read in the given way. -/
def perform (input : Input) (how : Read) : ReadResult × Input :=
  let got := input.source.perform how
  (got.1, { input with source := got.2 })

end Input

end EmbeddedHttp
