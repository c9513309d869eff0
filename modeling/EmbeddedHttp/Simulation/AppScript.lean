/-
# EmbeddedHttp.Simulation.AppScript -- scripted applications

An application script is a list of steps that answer one request.  Each records
its result; a step that fails ends the call with its error, unless the script
catches it.  A script that ends without returning a body returns an empty one.
-/
import EmbeddedHttp.Simulation.TaskScript

namespace EmbeddedHttp.Simulation

set_option autoImplicit false

/-- A step of an application script. -/
inductive AppStep where
  | wait (step : WaitStep)
  | resumeSelf (signal : Signal)
  | suspended
  | start (status : String) (headers : List (String × String)) (excuse : Option AppError)
  | write (data : Bytes)
  | headersSent
  | input (how : Read)
  /-- Read all of the body and write it. -/
  | echo
  | header (name : String)
  | environ
  | resumeIn (delay : Nat) (signal : Signal)
  | resumeLater (delay : Nat)
  | park
  | wake (signal : Signal)
  | detach (message : String)
  | stop (grace : Option Nat)
  | fail (message : String)
  | panic (payload : PanicPayload)
  | giveBack (body : ResponseBody Call)
  /-- Return the rest of the request's body. -/
  | giveBackInput

/-- An application script. -/
abbrev AppScript := List (Guarded AppStep)

namespace AppScript

/-- Record something and go on. -/
def record (entry : Entry) (next : ScriptHandler) : ScriptHandler :=
  .call (.record entry) fun _ => next

/-- Record that a step failed, and go on only if the script catches it. -/
def failed (name : String) (catches : Bool) (error : AppError) (rest : ScriptHandler) :
    ScriptHandler :=
  record (.step name (.appError error)) (if catches then rest else .fail error)

/-- Go on behind a step that may have failed with an application error. -/
def settle (name : String) (catches : Bool) (result : Except AppError Unit)
    (rest : ScriptHandler) (onSuccess : ScriptHandler) : ScriptHandler :=
  match result with
  | .ok () => onSuccess
  | .error error => failed name catches error rest

/-- Go on behind a wait. -/
def settleWait {α : Type} (name : String) (catches : Bool) (shown : α → Shown)
    (result : Except TaskError α) (rest : ScriptHandler) : ScriptHandler :=
  match result with
  | .ok value => record (.step name (shown value)) rest
  | .error error =>
      record (.taskError error) (failed name catches (AppError.ofTask error) rest)

/-- Write something and record whether the head is out. -/
def write (name : String) (catches : Bool) (data : Bytes) (rest : ScriptHandler) :
    ScriptHandler :=
  .write data fun result =>
    settle name catches result rest
      (.headersSent fun sent => record (.step name (.flag sent)) rest)

/-- The code of the steps, for a request whose body is read as far as `input` says. -/
def steps (environ : Environ) : Input → AppScript → ScriptHandler
  | _, [] => .done .empty
  | input, ⟨.wait step, catches⟩ :: rest =>
      match step with
      | .suspend timeout =>
          .suspend timeout fun result =>
            settleWait step.name catches Shown.ofPayload result (steps environ input rest)
      | .sleep time =>
          .sleep time fun result =>
            settleWait step.name catches (fun _ => .ok) result (steps environ input rest)
      | .trampoline descriptor reads writes timeout =>
          .trampoline descriptor reads writes timeout fun result =>
            settleWait step.name catches (fun _ => .ok) result (steps environ input rest)
  | input, ⟨.resumeSelf signal, _⟩ :: rest =>
      .call (.resumeOwn signal) fun result =>
        record (.step "resume_self" (Shown.ofDelivery result)) (steps environ input rest)
  | input, ⟨.suspended, _⟩ :: rest =>
      .call .ownIsSuspended fun value =>
        record (.step "suspended" (.flag value)) (steps environ input rest)
  | input, ⟨.start status headers excuse, catches⟩ :: rest =>
      let after := steps environ input rest
      .start status headers excuse fun result =>
        settle "start" catches result after (record (.step "start" .ok) after)
  | input, ⟨.write data, catches⟩ :: rest =>
      write "write" catches data (steps environ input rest)
  | input, ⟨.headersSent, _⟩ :: rest =>
      .headersSent fun sent =>
        record (.step "headers_sent" (.flag sent)) (steps environ input rest)
  | input, ⟨.input how, _⟩ :: rest =>
      let got := input.perform how
      record (.step "input" (.read got.1)) (steps environ got.2 rest)
  | input, ⟨.echo, catches⟩ :: rest =>
      let got := input.readAll
      write "echo" catches got.1 (steps environ got.2 rest)
  | input, ⟨.header name, _⟩ :: rest =>
      record (.step "header" (Shown.ofText? (environ.header? name))) (steps environ input rest)
  | input, ⟨.environ, _⟩ :: rest =>
      record (.step "env" (.environ environ)) (steps environ input rest)
  | input, ⟨.resumeIn delay signal, _⟩ :: rest =>
      .call (.resumeOwnIn delay signal) fun _ =>
        record (.step "resume_in" .ok) (steps environ input rest)
  | input, ⟨.resumeLater delay, _⟩ :: rest =>
      .call (.resumeOwnLater delay) fun isActive =>
        record (.step "resume_later" (.flag isActive)) (steps environ input rest)
  | input, ⟨.park, _⟩ :: rest =>
      .call .park fun _ => record (.step "park" .ok) (steps environ input rest)
  | input, ⟨.wake signal, _⟩ :: rest =>
      .call (.wakeParked signal) fun result =>
        record (.step "wake" (Shown.ofDelivery? result)) (steps environ input rest)
  | input, ⟨.detach message, _⟩ :: rest =>
      .call (.detach message) fun _ =>
        record (.step "detach" .ok) (steps environ input rest)
  | input, ⟨.stop grace, _⟩ :: rest =>
      .call (.stop grace) fun _ => record (.step "stop" .ok) (steps environ input rest)
  | input, ⟨.fail message, catches⟩ :: rest =>
      failed "fail" catches (.plain message) (steps environ input rest)
  | _, ⟨.panic payload, _⟩ :: _ => .panic payload
  | _, ⟨.giveBack body, _⟩ :: _ => .done body
  | input, ⟨.giveBackInput, _⟩ :: _ => .done (.full input.readAll.1)

/-- The code of a call without a script: the path is the body. -/
def pathAsBody (environ : Environ) : ScriptHandler :=
  .start "200 OK" [] none fun
    | .ok () => .done (.full (Bytes.ofText environ.path))
    | .error error => .fail error

end AppScript

/-- Scripts by decoded path; `*` stands for every other path. -/
abbrev ScriptBook := List (String × AppScript)

namespace ScriptBook

/-- The script for a path. -/
def script? (book : ScriptBook) (path : String) : Option AppScript :=
  match book.lookup path with
  | some script => some script
  | none => book.lookup "*"

/-- The application that follows the scripts. -/
def application (book : ScriptBook) : Application Call Call.Answer := fun environ =>
  AppScript.record (.application environ.method.name environ.path)
    (match book.script? environ.path with
      | some script => AppScript.steps environ environ.input script
      | none => AppScript.pathAsBody environ)

end ScriptBook

end EmbeddedHttp.Simulation
