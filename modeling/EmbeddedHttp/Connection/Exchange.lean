/-
# EmbeddedHttp.Connection.Exchange -- one request and its answer on the wire

While a request is answered the connection keeps what the access log will tell
(`Facts`) and how much of the answer is out (`Progress`).  The pieces of a body go
through `Progress.pushBody`, which frames each one as the head announced, clips the
body to its declared length, and says when the application need not go on.
-/
import EmbeddedHttp.Application.Handler
import EmbeddedHttp.Response.Outbox

namespace EmbeddedHttp

set_option autoImplicit false

/-- Does the connection want more of the body? -/
inductive Flow where
  | more
  /-- The body is complete; the application is not asked for more. -/
  | enough
  deriving DecidableEq, Repr

/-- What the task has put on the wire so far. -/
structure Progress where
  framing : Option ResponseFraming
  status : Nat
  bodySent : Nat
  /-- Some octet of the answer reached the socket. -/
  flushed : Bool
  deriving DecidableEq, Repr

namespace Progress

/-- Nothing sent. -/
def none : Progress := ⟨Option.none, 0, 0, false⟩

/-- Is the body complete? -/
def flow (progress : Progress) : Flow :=
  match progress.framing with
  | .none => .more
  | some framing =>
      if !framing.bodyAllowed then .enough
      else match framing.contentLength with
        | some limit => if !framing.chunked && limit ≤ progress.bodySent then .enough else .more
        | .none => .more

/-- Queue one piece of the body, framed and clipped to the declared length. -/
def pushBody (progress : Progress) (outbox : Outbox) (data : Bytes) : Outbox × Progress × Flow :=
  match progress.framing with
  | .none => (outbox, progress, .enough)
  | some framing =>
      if !framing.bodyAllowed then (outbox, progress, .enough)
      else if framing.chunked then
        (outbox.pushChunk data,
          { progress with bodySent := progress.bodySent + data.length }, .more)
      else match framing.contentLength with
        | some limit =>
            let part := data.take (limit - progress.bodySent)
            let progress := { progress with bodySent := progress.bodySent + part.length }
            (outbox.push part, progress, progress.flow)
        | .none =>
            (outbox.push data, { progress with bodySent := progress.bodySent + data.length }, .more)

/-- How much of a file may be sent, nothing when no body may follow. -/
def fileRoom (progress : Progress) (body : FileBody) : Nat :=
  match progress.framing with
  | .none => 0
  | some framing =>
      if !framing.bodyAllowed then 0
      else match framing.contentLength with
        | some limit => min body.length limit
        | .none => body.length

/-- Is the body shorter than the head said? -/
def isShort (progress : Progress) : Bool :=
  match progress.framing with
  | .none => false
  | some framing => framing.bodyAllowed && framing.contentLength.any (progress.bodySent < ·)

/-- Does the head ask for a last chunk? -/
def isChunked (progress : Progress) : Bool :=
  progress.framing.any (·.chunked)

/-- Note whether anything of an outbox reached the socket. -/
def noteFlushed (progress : Progress) (sent : Nat) : Progress :=
  { progress with flushed := progress.flushed || 0 < sent }

end Progress

/-- What the access log tells of a request. -/
structure Facts where
  method : Method
  path : String
  version : Version
  referer : String
  userAgent : String
  deriving DecidableEq, Repr

/-- The facts of a request. -/
def Facts.ofRequest (request : Request) : Facts :=
  { method := request.method
    path := request.path
    version := request.version
    referer := (request.header? "referer").getD "-"
    userAgent := (request.header? "user-agent").getD "-" }

/-- A request being answered by its task. -/
structure Exchange (Call : Type) (Answer : Call → Type) where
  facts : Facts
  id : TaskId
  task : Task Emit Call Answer
  progress : Progress
  /-- The connection may be kept as far as is known. -/
  keepAlive : Bool
  /-- A write failed. -/
  broken : Bool

end EmbeddedHttp
