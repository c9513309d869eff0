/-
# EmbeddedHttp.Message.Event -- what a request message says, in order

Reading a message yields events: it begins, it names a target, it lists fields,
its head is complete, pieces of body arrive, it is complete.  Whoever listens may
refuse an event, which ends the message (`deliver`); nothing after a refused
event is heard.
-/
import EmbeddedHttp.Status

namespace EmbeddedHttp

set_option autoImplicit false

/-- The two protocol versions spoken. -/
inductive Version where
  | http10
  | http11
  deriving DecidableEq, Repr

/-- The version as it stands in a start line. -/
def Version.name : Version → String
  | .http10 => "HTTP/1.0"
  | .http11 => "HTTP/1.1"

/-- How the body of a message is delimited. -/
inductive Framing where
  /-- No body is announced. -/
  | none
  /-- A declared number of octets. -/
  | length (n : Nat)
  /-- Chunks, each with its own size. -/
  | chunked
  deriving DecidableEq, Repr

/-- What is known about a message once its head is complete. -/
structure HeadFacts where
  method : Bytes
  version : Version
  framing : Framing
  upgrade : Bool
  deriving DecidableEq, Repr

/-- One thing that a message says. -/
inductive Event where
  | begin
  | target (bytes : Bytes)
  | fieldName (bytes : Bytes)
  | fieldValue (bytes : Bytes)
  | head (facts : HeadFacts)
  | body (bytes : Bytes)
  | complete
  deriving DecidableEq, Repr

/-! ## Refusals and malformed messages -/

/-- Why a listener stops a message. -/
inductive Refusal where
  /-- The message is to be answered with this status. -/
  | status (status : Status)
  /-- A 64-bit sum left its range, so no listener is left to speak to. -/
  | overflow
  deriving DecidableEq, Repr

/-- The ways in which a message can be malformed. -/
inductive Malformed where
  | head
  | version
  | contentLength
  | conflictingContentLength
  | chunkSize
  | chunkSizeOverflow
  | chunkFraming
  /-- Input after a failure that was not cleared. -/
  | failedState
  deriving DecidableEq, Repr

/-- The text of each. -/
def Malformed.message : Malformed → String
  | .head => "bad request head"
  | .version => "unsupported version"
  | .contentLength => "bad content-length"
  | .conflictingContentLength => "conflicting content-length"
  | .chunkSize => "bad chunk size"
  | .chunkSizeOverflow => "chunk size overflow"
  | .chunkFraming => "bad chunk framing"
  | .failedState => "parser is in a failed state"

/-- Why reading a message stopped. -/
inductive ParseError where
  | refused (refusal : Refusal)
  | invalid (cause : Malformed)
  deriving DecidableEq, Repr

namespace ParseError

/-- The status to answer the message with. -/
def status : ParseError → Status
  | .refused (.status status) => status
  | .refused .overflow => .internalServerError
  | .invalid _ => .badRequest

/-- The text of the error. -/
def message : ParseError → String
  | .refused (.status status) => "request rejected with status " ++ toString status.code
  | .refused .overflow => "attempt to add with overflow"
  | .invalid cause => "malformed request: " ++ cause.message

end ParseError

/-! ## Listening -/

/-- A listener takes an event in its state and may refuse it.  Its state moves on
either way. -/
abbrev Listener (σ : Type) := Event → σ → Option Refusal × σ

/-- Tell a listener the events in order, up to the first that it refuses. -/
def deliver {σ : Type} (listener : Listener σ) : List Event → σ → Option Refusal × σ
  | [], state => (none, state)
  | event :: rest, state =>
      match listener event state with
      | (some refusal, state) => (some refusal, state)
      | (none, state) => deliver listener rest state

end EmbeddedHttp
