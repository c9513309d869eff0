/-
# EmbeddedHttp.Proofs.Message.Rereading -- a parser that reads a head again with every piece

A parser need not remember where in a head it is: it can keep the octets of a head that is not
complete and read all of them again with every piece (`Rereader`).  Reading a piece is then a
loop whose turns take what they can; one kind of turn takes nothing, and three of them compute
a difference of two counts.

Such a reader is given here with checked differences and a budget of turns (`execute`), so that
it shows in what comes of a piece whether a difference is negative or the turns are used up.
What was read of a head before need not be read again to know what comes of it
(`Head.Scan.parse_append`), and a head ends behind what was read of it (`Head.Scan.lt_of_parse`).
-/
import EmbeddedHttp.Proofs.Message.HeadReading
import EmbeddedHttp.Proofs.Message.Sessions

namespace EmbeddedHttp

set_option autoImplicit false

/-! ## Reading a head from its first octet -/

namespace Head

/-- What comes of reading a head. -/
inductive Outcome where
  | unfinished
  /-- The head is complete, and this many octets long. -/
  | complete (head : Raw) (size : Nat)
  | malformed (cause : Malformed)
  | tooManyFields
  deriving DecidableEq, Repr

/-- Read on in a head of which `size` octets were read. -/
def Scan.parse (scan : Scan) (size : Nat) : Bytes → Outcome
  | [] => .unfinished
  | b :: rest =>
      match scan.step b with
      | .more next => next.parse (size + 1) rest
      | .complete head => .complete head (size + 1)
      | .malformed cause => .malformed cause
      | .tooManyFields => .tooManyFields

/-- Read a head. -/
def parse (octets : Bytes) : Outcome := Scan.start.parse 0 octets

namespace Scan

variable {scan next : Scan} {size : Nat}

/-- What was read before need not be read again. -/
theorem parse_append {first : Bytes} (fed : scan.feed first = some next) (second : Bytes) :
    scan.parse size (first ++ second) = next.parse (size + first.length) second := by
  induction first generalizing scan size with
  | nil => rw [← Option.some.inj fed, List.nil_append, List.length_nil, Nat.add_zero]
  | cons b rest ih =>
      rw [List.cons_append, parse]
      unfold feed at fed
      cases stepped : scan.step b with
      | more further =>
          rw [stepped] at fed
          simp only
          rw [ih fed, List.length_cons, Nat.add_assoc, Nat.add_comm 1]
      | _ => simp [stepped] at fed

/-- A head ends behind the octets that were read before. -/
theorem lt_of_parse {octets : Bytes} {head : Raw} {whole : Nat}
    (complete : scan.parse size octets = .complete head whole) :
    size < whole ∧ whole ≤ size + octets.length := by
  induction octets generalizing scan size with
  | nil => cases complete
  | cons b rest ih =>
      unfold parse at complete
      rw [List.length_cons]
      cases stepped : scan.step b with
      | more further =>
          rw [stepped] at complete
          have := ih complete
          omega
      | complete raw =>
          rw [stepped] at complete
          cases complete
          omega
      | malformed cause => rw [stepped] at complete; cases complete
      | tooManyFields => rw [stepped] at complete; cases complete

end Scan

end Head

/-! ## The reader -/

/-- Where in the stream a reader is. -/
inductive Rereader.Place where
  | idle
  | head
  | body (left : Nat)
  | chunked (place : Chunk.Place)
  | upgraded
  | failed
  deriving DecidableEq, Repr

/-- A parser that keeps the octets of a head that is not complete. -/
structure Rereader where
  place : Rereader.Place
  kept : Bytes
  deriving DecidableEq, Repr

namespace Rereader

/-- Nothing read. -/
def new : Rereader := ⟨.idle, []⟩

/-- Forget what was read of a message. -/
def reset (reader : Rereader) : Rereader := { reader with place := .idle, kept := [] }

/-- Take nothing more, and keep nothing. -/
def fail (reader : Rereader) : Rereader := { reader with place := .failed, kept := [] }

/-- What one turn of the loop comes to. -/
inductive Turn where
  | onward (next : Rereader) (taken : Nat)
  | stopped (fault : ParseError)
  /-- A difference of two counts is negative. -/
  | underflow
  deriving DecidableEq, Repr

/-- The difference of two counts, unless it is negative. -/
def difference? (whole part : Nat) : Option Nat :=
  if part ≤ whole then some (whole - part) else none

/-- How it goes on behind a head: the end of a message without a body, and the place. -/
def behindHead (facts : HeadFacts) : List Event × Place :=
  if facts.upgrade then ([.complete], .upgraded)
  else match facts.framing with
    | .chunked => ([], .chunked Chunk.Place.start)
    | .length (n + 1) => ([], .body (n + 1))
    | _ => ([.complete], .idle)

/-- A turn in a head: as much as a head may still take is kept, and all that is kept is read. -/
def headTurn (kept data : Bytes) : List Event × Turn :=
  match difference? Head.maxSize kept.length with
  | none => ([], .underflow)
  | some room =>
      let gathered := kept ++ data.take room
      match Head.parse gathered with
      | .unfinished =>
          if Head.maxSize ≤ gathered.length then
            ([], .stopped (.refused (.status .badRequest)))
          else ([], .onward ⟨.head, gathered⟩ (min room data.length))
      | .malformed cause => ([], .stopped (.invalid cause))
      | .tooManyFields => ([], .stopped (.refused (.status .badRequest)))
      | .complete head size =>
          match head.announce with
          | (events, .error cause) => (events, .stopped (.invalid cause))
          | (events, .ok facts) =>
              match difference? size kept.length with
              | none => (events, .underflow)
              | some taken =>
                  (events ++ (behindHead facts).1, .onward ⟨(behindHead facts).2, []⟩ taken)

/-- How it goes on when this much is left of a body. -/
def behindBody : Nat → List Event × Place
  | 0 => ([.complete], .idle)
  | more + 1 => ([], .body (more + 1))

/-- How it goes on when this much is left of the data of a chunk. -/
def behindData : Nat → List Event × Place
  | 0 => ([], .chunked .dataReturn)
  | more + 1 => ([], .chunked (.data (more + 1)))

/-- A turn that takes as much as there is of what is left. -/
def fragmentTurn (behind : Nat → List Event × Place) (left : Nat) (kept data : Bytes) :
    List Event × Turn :=
  let take := min left data.length
  match difference? left take with
  | none => ([.body (data.take take)], .underflow)
  | some more =>
      (.body (data.take take) :: (behind more).1, .onward ⟨(behind more).2, kept⟩ take)

/-- A turn outside the data of a chunk. -/
def chunkTurn (place : Chunk.Place) (kept : Bytes) (b : UInt8) : List Event × Turn :=
  match place.step b with
  | .next next => ([], .onward ⟨.chunked next, kept⟩ 1)
  | .finished => ([.complete], .onward ⟨.idle, kept⟩ 1)
  | .malformed cause => ([], .stopped (.invalid cause))
  | .tooLong => ([], .stopped (.refused (.status .badRequest)))

/-- One turn of the loop at the octet `b`, with `rest` behind it. -/
def turn (reader : Rereader) (b : UInt8) (rest : Bytes) : List Event × Turn :=
  match reader.place with
  | .failed => ([], .stopped (.invalid .failedState))
  | .idle =>
      if b == Bytes.cr || b == Bytes.lf then ([], .onward reader 1)
      else ([.begin], .onward { reader with place := .head } 0)
  | .head => headTurn reader.kept (b :: rest)
  | .body left => fragmentTurn behindBody left reader.kept (b :: rest)
  | .chunked (.data left) => fragmentTurn behindData left reader.kept (b :: rest)
  | .chunked place => chunkTurn place reader.kept b
  | .upgraded => ([.body (b :: rest)], .onward reader (rest.length + 1))

/-- What came of feeding a reader with a listener. -/
structure Fed (σ : Type) where
  reader : Rereader
  state : σ
  result : Except ParseError Nat

/-- How the loop ended. -/
inductive Ending (σ : Type) where
  | done (fed : Fed σ)
  /-- A difference of two counts is negative. -/
  | underflow
  /-- The turns were used up. -/
  | endless

variable {σ : Type}

/-- The loop over a piece of which `taken` octets were taken, for a number of turns. -/
def loop (listener : Listener σ) : Nat → Rereader → σ → Nat → Bytes → Ending σ
  | _, reader, state, taken, [] => .done ⟨reader, state, .ok taken⟩
  | 0, _, _, _, _ :: _ => .endless
  | turns + 1, reader, state, taken, b :: rest =>
      let told := reader.turn b rest
      match deliver listener told.1 state with
      | (some refusal, state) => .done ⟨reader.fail, state, .error (.refused refusal)⟩
      | (none, state) =>
          match told.2 with
          | .stopped fault => .done ⟨reader.fail, state, .error fault⟩
          | .underflow => .underflow
          | .onward next more =>
              loop listener turns next state (taken + more) ((b :: rest).drop more)

/-- Read a piece and tell a listener, with two turns for each octet. -/
def execute (reader : Rereader) (listener : Listener σ) (state : σ) (piece : Bytes) : Ending σ :=
  loop listener (2 * piece.length) reader state 0 piece

end Rereader

end EmbeddedHttp
