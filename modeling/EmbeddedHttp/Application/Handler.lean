/-
# EmbeddedHttp.Application.Handler -- applications and how their answers are sent

An application answers one request.  Its code starts the response, may send parts
of the body on the way, may suspend, and ends with a body or an error; `Handler`
is the tree of that code.  The response it started is kept for it, so it can reach
the connection only through the operations of the tree.

`Handler.perform` turns such code into the code of a request task: it hands the
head over once, before any of the body, and then the body piece by piece until the
connection wants no more.
-/
import EmbeddedHttp.Application.Environ
import EmbeddedHttp.Response.Body
import EmbeddedHttp.Task.Basic

namespace EmbeddedHttp

set_option autoImplicit false

/-- The code of an application for one request. -/
inductive Handler (Call : Type) (Answer : Call → Type) : Type where
  | done (body : ResponseBody Call)
  | fail (error : AppError)
  | panic (payload : PanicPayload)
  /-- Set the status and headers; an error may be given as the excuse for doing so
  again. -/
  | start (status : String) (headers : List (String × String)) (excuse : Option AppError)
      (next : Except AppError Unit → Handler Call Answer)
  /-- Send a part of the body now. -/
  | write (data : Bytes) (next : Except AppError Unit → Handler Call Answer)
  /-- Are the status and headers out? -/
  | headersSent (next : Bool → Handler Call Answer)
  | suspend (timeout : Option Nat)
      (next : Except TaskError (Option Payload) → Handler Call Answer)
  | trampoline (descriptor : Option Descriptor) (read write : Bool) (timeout : Option Nat)
      (next : Except TaskError Unit → Handler Call Answer)
  | sleep (time : Nat) (next : Except TaskError Unit → Handler Call Answer)
  | call (request : Call) (next : Answer request → Handler Call Answer)

/-- An application: code for every request. -/
abbrev Application (Call : Type) (Answer : Call → Type) := Environ → Handler Call Answer

/-- The code of a request task. -/
abbrev RequestProgram (Call : Type) (Answer : Call → Type) := Program Emit Call Answer

namespace RequestProgram

variable {Call : Type} {Answer : Call → Type}

/-- Whether the connection wants more, or the error that ends the task.  A
connection that wants no more answers with a cancellation. -/
def wantsMore (result : Except TaskError Unit) : Except AppError Bool :=
  match result with
  | .ok () => .ok true
  | .error .cancelled => .ok false
  | .error error => .error (AppError.ofTask error)

/-- Hand something to the connection. -/
def send (emit : Emit) (next : Except AppError Bool → RequestProgram Call Answer) :
    RequestProgram Call Answer :=
  .emit emit fun result => next (wantsMore result)

/-- Hand over the last thing and end. -/
def sendLast (emit : Emit) : RequestProgram Call Answer :=
  send emit fun
    | .ok _ => .finish (.ok ())
    | .error error => .finish (.error error)

/-- Make calls whose answers do not matter. -/
def tell (calls : List Call) (next : RequestProgram Call Answer) : RequestProgram Call Answer :=
  match calls with
  | [] => next
  | request :: rest => .call request fun _ => tell rest next

/-- Hand over what the pulls yield, until one fails or no more is wanted.  Empty
chunks are passed over. -/
def sendPulls : List (Pull Call) → RequestProgram Call Answer
  | [] => .finish (.ok ())
  | pull :: rest =>
      tell pull.told <|
        match pull.yields with
        | .failed error => .finish (.error error)
        | .panicked payload => .panic payload
        | .chunk data =>
            if data.isEmpty then sendPulls rest
            else send (.chunk data) fun
              | .ok true => sendPulls rest
              | .ok false => .finish (.ok ())
              | .error error => .finish (.error error)

/-- The length of a streamed body whose first chunk is known: exact when the stream
says that nothing is left. -/
def streamLength (hint : Nat × Option Nat) (first : Bytes) : BodyLength :=
  if hint = (0, some 0) then .known first.length else .unknown

/-- Hand over the head and then the pulls behind the first chunk. -/
def sendStream (start : StartResponse) (first : Option Bytes) (length : BodyLength)
    (rest : List (Pull Call)) : RequestProgram Call Answer :=
  match start.takeHead with
  | .error error => .finish (.error error)
  | .ok (head, _) =>
      send (.head head first length) fun
        | .ok true => sendPulls rest
        | .ok false => .finish (.ok ())
        | .error error => .finish (.error error)

/-- Hand over a body whose head is not out yet. -/
def sendWhole (start : StartResponse) (body : ResponseBody Call) : RequestProgram Call Answer :=
  let withHead := fun emit : ResponseHead → Emit =>
    match start.takeHead with
    | .error error => Program.finish (.error error)
    | .ok (head, _) => sendLast (emit head)
  match body with
  | .file part => withHead fun head => .file head part
  | .empty => withHead fun head => .head head none (.known 0)
  | .full data => withHead fun head => .head head (some data) (.known data.length)
  | .stream chunks =>
      match chunks.pulls with
      | [] => sendStream start none (.known 0) []
      | pull :: rest =>
          tell pull.told <|
            match pull.yields with
            | .failed error => .finish (.error error)
            | .panicked payload => .panic payload
            | .chunk data => sendStream start (some data) (streamLength chunks.hint data) rest

/-- Hand over the rest of a body whose head is out. -/
def sendRest (body : ResponseBody Call) : RequestProgram Call Answer :=
  match body with
  | .empty => .finish (.ok ())
  | .full data => sendLast (.chunk data)
  | .stream chunks => sendPulls chunks.pulls
  | .file _ => .finish (.error (.plain "file body returned after Environ::write"))

end RequestProgram

namespace Handler

variable {Call : Type} {Answer : Call → Type}

/-- Only whether a write failed is of interest to the application. -/
def written (result : Except AppError Bool) : Except AppError Unit :=
  match result with
  | .ok _ => .ok ()
  | .error error => .error error

/-- The code of a request task for the code of an application. -/
def perform (start : StartResponse) : Handler Call Answer → RequestProgram Call Answer
  | .done body =>
      if start.headersSent then RequestProgram.sendRest body
      else RequestProgram.sendWhole start body
  | .fail error => .finish (.error error)
  | .panic payload => .panic payload
  | .start status headers excuse next =>
      match start.call status headers excuse with
      | .ok started => perform started (next (.ok ()))
      | .error error => perform start (next (.error error))
  | .write data next =>
      if start.headersSent then
        if data.isEmpty then perform start (next (.ok ()))
        else RequestProgram.send (.chunk data) fun result => perform start (next (written result))
      else
        match start.takeHead with
        | .error error => perform start (next (.error error))
        | .ok (head, started) =>
            let first := if data.isEmpty then none else some data
            RequestProgram.send (.head head first .unknown) fun result =>
              perform started (next (written result))
  | .headersSent next => perform start (next start.headersSent)
  | .suspend timeout next => .suspend timeout fun result => perform start (next result)
  | .trampoline descriptor reads writes timeout next =>
      .trampoline descriptor reads writes timeout fun result => perform start (next result)
  | .sleep time next => .sleep time fun result => perform start (next result)
  | .call request next => .call request fun answer => perform start (next answer)

end Handler

/-- The code of the task that answers one request. -/
def Application.respond {Call : Type} {Answer : Call → Type} (application : Application Call Answer)
    (environ : Environ) : RequestProgram Call Answer :=
  (application environ).perform StartResponse.new

end EmbeddedHttp
