/-
# EmbeddedHttp.Response.Head -- the status and headers that an application chooses

An application starts its response with a status line and headers.  They are
checked before they are accepted: the status begins with a three-digit code, and
neither it nor a header may hold a line end, so nothing can be smuggled into the
head.  The server's own headers are left out of what the application gave.

`StartResponse` is the state between the application and the connection: the
pending head, and whether it has been handed over.  A call that fails leaves it
as it was.
-/
import EmbeddedHttp.Fault
import EmbeddedHttp.Text.Blank
import EmbeddedHttp.Text.Numeral
import EmbeddedHttp.Text.Quoted
import EmbeddedHttp.Request.Basic

namespace EmbeddedHttp

set_option autoImplicit false

/-- The status and headers of a response. -/
structure ResponseHead where
  /-- The status line behind the version. -/
  status : String
  code : Nat
  headers : List (String × String)
  /-- The length that the application declared. -/
  contentLength : Option Nat
  /-- The application asked for the connection to be closed. -/
  close : Bool
  deriving DecidableEq, Repr

namespace ResponseHead

/-- The value of the first header with a given name. -/
def header? (head : ResponseHead) (name : String) : Option String :=
  headerValue? head.headers name

/-- A code whose responses never have a body. -/
def bodiless (code : Nat) : Bool :=
  (100 ≤ code && code < 200) || code == 204 || code == 304

/-- May a body follow? -/
def allowsBody (head : ResponseHead) (headRequest : Bool) : Bool :=
  !(headRequest || bodiless head.code)

/-- Does the connection change its protocol with this response? -/
def isSwitching (head : ResponseHead) : Bool := head.code == 101

/-! ## Checking what the application gave -/

/-- The code at the start of a status: what stands before the first space, as a
numeral from 100 to 999. -/
def code? (status : String) : Option Nat :=
  (Text.numeral? 65536 (Text.cut ' ' status.toList).1).filter fun n => 100 ≤ n && n < 1000

/-- The part of a head that depends on its headers. -/
structure Checked where
  /-- The headers that are kept, last first. -/
  kept : List (String × String)
  contentLength : Option Nat
  close : Bool

/-- Is this character barred from header names? -/
def isBarredInName (c : Char) : Bool := c == ':' || Text.isLineEnd c

/-- Check one header of a response with the given code. -/
def checkHeader (code : Nat) (sofar : Checked) (name value : String) : Except AppError Checked :=
  if name.isEmpty || Text.has name isBarredInName then
    .error (.plain ("illegal header name " ++ Text.quote name))
  else if Text.has value Text.isLineEnd then
    .error (.plain ("illegal value for header " ++ name))
  else if Text.sameIgnoringCase name "server" || Text.sameIgnoringCase name "date" then
    .ok sofar
  else if Text.sameIgnoringCase name "connection" && code != 101 then
    .ok { sofar with
      close := sofar.close || Text.sameIgnoringCase (Text.trim value) "close" }
  else if Text.sameIgnoringCase name "content-length" then
    match Text.numeral? Bytes.wordBound (Text.trimChars value.toList) with
    | none => .error (.plain ("invalid Content-Length " ++ Text.quote value))
    | some n => .ok { sofar with kept := (name, value) :: sofar.kept, contentLength := some n }
  else .ok { sofar with kept := (name, value) :: sofar.kept }

/-- Check the headers in order, up to the first that is refused. -/
def checkHeaders (code : Nat) : Checked → List (String × String) → Except AppError Checked
  | sofar, [] => .ok sofar
  | sofar, (name, value) :: rest =>
      match checkHeader code sofar name value with
      | .error error => .error error
      | .ok sofar => checkHeaders code sofar rest

/-- The head for a status and headers, if they are legal. -/
def build (status : String) (headers : List (String × String)) : Except AppError ResponseHead :=
  let status := Text.trim status
  match code? status with
  | none => .error (.plain ("invalid status line " ++ Text.quote status))
  | some code =>
      if Text.has status Text.isLineEnd then
        .error (.plain "status line contains a newline")
      else match checkHeaders code ⟨[], none, false⟩ headers with
        | .error error => .error error
        | .ok checked =>
            .ok ⟨status, code, checked.kept.reverse, checked.contentLength, checked.close⟩

end ResponseHead

/-! ## Starting a response -/

/-- The pending head, and whether it has been handed to the connection. -/
structure StartResponse where
  head : Option ResponseHead
  headersSent : Bool
  deriving DecidableEq, Repr

namespace StartResponse

/-- Nothing started. -/
def new : StartResponse := ⟨none, false⟩

/-- Has a head been accepted? -/
def isCalled (start : StartResponse) : Bool := start.head.isSome

/-- Set the status and headers.  A second call needs an error as its excuse: then
it replaces a head that is still pending, and is answered with that very error
when the head is out already. -/
def call (start : StartResponse) (status : String) (headers : List (String × String))
    (excuse : Option AppError) : Except AppError StartResponse :=
  let accept := match ResponseHead.build status headers with
    | .error error => .error error
    | .ok head => .ok { start with head := some head }
  match excuse with
  | some error => if start.headersSent then .error error else accept
  | none =>
      if start.head.isSome then
        .error (.plain "start_response called a second time without exc_info")
      else accept

/-- Hand the head over. -/
def takeHead (start : StartResponse) : Except AppError (ResponseHead × StartResponse) :=
  match start.head with
  | none => .error (.plain "application returned without calling start_response")
  | some head => .ok (head, { start with headersSent := true })

end StartResponse

end EmbeddedHttp
