/-
# EmbeddedHttp.Response.Framing -- the head as octets, and the framing of the body

The head block of a response is the status line, the headers of the application,
and the lines that the server adds: a length or a transfer coding when the
application declared none, what becomes of the connection, the server's name and
the date.  How the body is delimited is decided on the way.
-/
import EmbeddedHttp.Response.Body

namespace EmbeddedHttp

set_option autoImplicit false

/-- The facts of one request that shape the head. -/
structure HeadContext where
  version : Version
  headRequest : Bool
  keepAlive : Bool
  serverName : String
  date : Bytes

/-- How the body that follows a head is delimited. -/
structure ResponseFraming where
  keepAlive : Bool
  chunked : Bool
  /-- The number of octets to write, when it is bounded. -/
  contentLength : Option Nat
  bodyAllowed : Bool
  deriving DecidableEq, Repr

namespace ResponseFraming

/-- Is the length of the body announced by the server, and which?  Heads that never
have a body get no length of the server's. -/
def inferred? (head : ResponseHead) (length : BodyLength) : Option Nat :=
  match head.contentLength, length with
  | none, .known n => if ResponseHead.bodiless head.code then none else some n
  | _, _ => none

/-- Neither the application nor the server knows the length of a body that may
follow. -/
def isUnbounded (head : ResponseHead) (length : BodyLength) (context : HeadContext) : Bool :=
  head.contentLength.isNone && length == .unknown && head.allowsBody context.headRequest

/-- The framing of a response.  A body of unknown length goes out in chunks, or
ends with the connection when the client knows no chunks. -/
def decide (head : ResponseHead) (length : BodyLength) (context : HeadContext) :
    ResponseFraming :=
  let unbounded := isUnbounded head length context
  let bodyAllowed := head.allowsBody context.headRequest
  let bound := match head.contentLength, length with
    | some n, _ => some n
    | none, .known n => some n
    | none, .unknown => none
  { keepAlive := context.keepAlive && !head.close && !head.isSwitching &&
      !(unbounded && context.version == .http10)
    chunked := unbounded && context.version == .http11
    contentLength := if bodyAllowed then bound else some 0
    bodyAllowed := bodyAllowed }

end ResponseFraming

/-- One header line. -/
def headerLine (name value : Bytes) : Bytes :=
  name ++ Bytes.ofAscii ": " ++ value ++ Bytes.ofAscii "\r\n"

/-- The lines that the server adds to those of the application. -/
def serverLines (head : ResponseHead) (length : BodyLength) (context : HeadContext) : Bytes :=
  let framing := ResponseFraming.decide head length context
  let lengthLine := match ResponseFraming.inferred? head length with
    | some n => headerLine (Bytes.ofAscii "Content-Length") (Bytes.ofNat n)
    | none => []
  let codingLine :=
    if framing.chunked then
      headerLine (Bytes.ofAscii "Transfer-Encoding") (Bytes.ofAscii "chunked")
    else []
  let connectionLine :=
    if head.isSwitching then []
    else if framing.keepAlive then
      headerLine (Bytes.ofAscii "Connection") (Bytes.ofAscii "Keep-Alive")
    else headerLine (Bytes.ofAscii "Connection") (Bytes.ofAscii "close")
  lengthLine ++ codingLine ++ connectionLine ++
    headerLine (Bytes.ofAscii "Server") (Bytes.ofText context.serverName) ++
    headerLine (Bytes.ofAscii "Date") context.date

/-- The head block of a response, its empty line included, and the framing of the
body. -/
def assembleHead (head : ResponseHead) (length : BodyLength) (context : HeadContext) :
    Bytes × ResponseFraming :=
  let statusLine :=
    Bytes.ofAscii context.version.name ++ [Bytes.space] ++ Bytes.ofText head.status ++
      Bytes.ofAscii "\r\n"
  let lines := head.headers.flatMap fun header =>
    headerLine (Bytes.ofText header.1) (Bytes.ofText header.2)
  (statusLine ++ lines ++ serverLines head length context ++ Bytes.ofAscii "\r\n",
    ResponseFraming.decide head length context)

end EmbeddedHttp
