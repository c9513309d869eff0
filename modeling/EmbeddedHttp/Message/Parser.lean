/-
# EmbeddedHttp.Message.Parser -- reading request messages from a stream

A parser takes a stream in whatever pieces it arrives and says what the messages
in it say (`Event`).  Between messages it passes over line ends; then it scans a
head, and reads the body as the head frames it.  After an upgrade everything that
follows is body and no new message begins.

`Parser.run` is a function of the parser and the octets: it yields the events and
either the parser afterwards or the fault at which it stopped.  `Parser.execute`
tells the events to a listener as well; a refusal is a fault like any other, and
after a fault the parser takes nothing until it is reset.
-/
import EmbeddedHttp.Message.Framing
import EmbeddedHttp.Message.Chunk

namespace EmbeddedHttp

set_option autoImplicit false

/-- A parser is at one of these points of the stream. -/
inductive Parser where
  /-- Between messages. -/
  | idle
  /-- In a head of which this many octets were taken. -/
  | head (scan : Head.Scan) (size : Nat)
  /-- In a body with this many octets to come. -/
  | body (left : Nat)
  | chunked (place : Chunk.Place)
  | upgraded
  | failed
  deriving DecidableEq, Repr

namespace Parser

/-- Is it between messages? -/
def isIdle (parser : Parser) : Bool := parser == .idle

/-- Has it seen an upgrade? -/
def isUpgraded (parser : Parser) : Bool := parser == .upgraded

/-- One step: the events, and either the fault, or the parser and how many octets
behind the first one were taken too. -/
abbrev Step := List Event × Except ParseError (Parser × Nat)

/-- The parser behind a complete head, which ends the message unless a body
follows. -/
def afterHead (raw : Head.Raw) : Step :=
  let announced := raw.announce
  match announced.2 with
  | .error cause => (announced.1, .error (.invalid cause))
  | .ok facts =>
      if facts.upgrade then (announced.1 ++ [.complete], .ok (.upgraded, 0))
      else match facts.framing with
        | .chunked => (announced.1, .ok (.chunked Chunk.Place.start, 0))
        | .length (n + 1) => (announced.1, .ok (.body (n + 1), 0))
        | _ => (announced.1 ++ [.complete], .ok (.idle, 0))

/-- One octet of a head, of which `size` were taken before. -/
def headStep (scan : Head.Scan) (size : Nat) (b : UInt8) : Step :=
  match scan.step b with
  | .more scan =>
      if Head.maxSize ≤ size + 1 then ([], .error (.refused (.status .badRequest)))
      else ([], .ok (.head scan (size + 1), 0))
  | .complete raw => afterHead raw
  | .malformed cause => ([], .error (.invalid cause))
  | .tooManyFields => ([], .error (.refused (.status .badRequest)))

/-- One octet outside the data of a chunk. -/
def chunkStep (place : Chunk.Place) (b : UInt8) : Step :=
  match place.step b with
  | .next place => ([], .ok (.chunked place, 0))
  | .finished => ([.complete], .ok (.idle, 0))
  | .malformed cause => ([], .error (.invalid cause))
  | .tooLong => ([], .error (.refused (.status .badRequest)))

/-- One step at the octet `b`, with `rest` behind it. -/
def step (parser : Parser) (b : UInt8) (rest : Bytes) : Step :=
  match parser with
  | .failed => ([], .error (.invalid .failedState))
  | .idle =>
      if b == Bytes.cr || b == Bytes.lf then ([], .ok (.idle, 0))
      else
        let first := headStep Head.Scan.start 0 b
        (.begin :: first.1, first.2)
  | .head scan size => headStep scan size b
  | .body left =>
      let fragment := b :: rest.take (left - 1)
      if left ≤ fragment.length then
        ([.body fragment, .complete], .ok (.idle, left - 1))
      else ([.body fragment], .ok (.body (left - fragment.length), left - 1))
  | .chunked (.data left) =>
      let fragment := b :: rest.take (left - 1)
      ([.body fragment],
        .ok (.chunked (Chunk.Place.afterData left fragment.length), left - 1))
  | .chunked place => chunkStep place b
  | .upgraded => ([.body (b :: rest)], .ok (.upgraded, rest.length))

/-- Read octets; the events told before are gathered in reverse. -/
def runFrom (told : List Event) (parser : Parser) (data : Bytes) :
    List Event × Except ParseError Parser :=
  match data with
  | [] => (told.reverse, .ok parser)
  | b :: rest =>
      match parser.step b rest with
      | (events, .error fault) => ((events.reverse ++ told).reverse, .error fault)
      | (events, .ok (parser, taken)) => runFrom (events.reverse ++ told) parser (rest.drop taken)
  termination_by data.length
  decreasing_by simp only [List.length_drop, List.length_cons]; omega

/-- Read octets: the events, and the parser afterwards or the fault at which it
stopped. -/
def run (parser : Parser) (data : Bytes) : List Event × Except ParseError Parser :=
  runFrom [] parser data

/-- What came of feeding a parser with a listener. -/
structure Execution (σ : Type) where
  parser : Parser
  listener : σ
  /-- The number of octets taken, all of them, or why reading stopped. -/
  result : Except ParseError Nat

/-- Read octets and tell the events to a listener. -/
def execute {σ : Type} (parser : Parser) (listener : Listener σ) (state : σ) (data : Bytes) :
    Execution σ :=
  let told := parser.run data
  match deliver listener told.1 state with
  | (some refusal, state) => ⟨.failed, state, .error (.refused refusal)⟩
  | (none, state) =>
      match told.2 with
      | .error fault => ⟨.failed, state, .error fault⟩
      | .ok parser => ⟨parser, state, .ok data.length⟩

/-- Feed the pieces in order, stopping at the first fault; the number of octets
taken is that of all pieces together. -/
def executeAll {σ : Type} (listener : Listener σ) : List Bytes → Nat → Parser → σ → Execution σ
  | [], taken, parser, state => ⟨parser, state, .ok taken⟩
  | piece :: rest, taken, parser, state =>
      let fed := parser.execute listener state piece
      match fed.result with
      | .error fault => ⟨fed.parser, fed.listener, .error fault⟩
      | .ok n => executeAll listener rest (taken + n) fed.parser fed.listener

end Parser

/-- Cut `data` into pieces of `size` octets, the last one perhaps shorter.  Size
zero leaves the data in one piece, and empty data is one empty piece. -/
def Bytes.cutEvery (size : Nat) (data : Bytes) : List Bytes :=
  let rec go : Nat → Bytes → List Bytes
    | 0, _ => []
    | _, [] => []
    | fuel + 1, data => data.take size :: go fuel (data.drop size)
  if size = 0 || data.isEmpty then [data] else go data.length data

end EmbeddedHttp
