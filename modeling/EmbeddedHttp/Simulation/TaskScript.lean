/-
# EmbeddedHttp.Simulation.TaskScript -- scripted tasks

A task script is a list of steps done in order.  Each records its result; a step
that fails ends the task with its error, unless the script catches it.
-/
import EmbeddedHttp.Simulation.Call

namespace EmbeddedHttp.Simulation

set_option autoImplicit false

/-- A step that any script may take. -/
inductive WaitStep where
  | suspend (timeout : Option Nat)
  | sleep (time : Nat)
  | trampoline (descriptor : Option Descriptor) (read write : Bool) (timeout : Option Nat)

/-- The name under which a step is recorded. -/
def WaitStep.name : WaitStep → String
  | .suspend _ => "suspend"
  | .sleep _ => "sleep"
  | .trampoline .. => "trampoline"

/-- A step of a task script. -/
inductive TaskStep where
  | wait (step : WaitStep)
  | resumeSelf (signal : Signal)
  | suspended
  | emit (item : String)
  | register (name : String)
  | wake (name : String) (signal : Signal)
  | fail (message : String)
  | panic (payload : PanicPayload)

/-- A task script. -/
abbrev TaskScript := List (Guarded TaskStep)

namespace TaskScript

/-- Record something and go on. -/
def record (entry : Entry) (next : ScriptProgram) : ScriptProgram :=
  .call (.record entry) fun _ => next

/-- Go on behind a step that may have failed. -/
def settle {α : Type} (name : String) (catches : Bool) (shown : α → Shown)
    (result : Except TaskError α) (rest : ScriptProgram) : ScriptProgram :=
  match result with
  | .ok value => record (.step name (shown value)) rest
  | .error error =>
      record (.step name (.taskError error))
        (if catches then rest else .finish (.error (AppError.ofTask error)))

/-- The code of the steps. -/
def steps : TaskScript → ScriptProgram
  | [] => .finish (.ok ())
  | ⟨.wait step, catches⟩ :: rest =>
      match step with
      | .suspend timeout =>
          .suspend timeout fun result =>
            settle step.name catches Shown.ofPayload result (steps rest)
      | .sleep time =>
          .sleep time fun result => settle step.name catches (fun _ => .ok) result (steps rest)
      | .trampoline descriptor reads writes timeout =>
          .trampoline descriptor reads writes timeout fun result =>
            settle step.name catches (fun _ => .ok) result (steps rest)
  | ⟨.resumeSelf signal, _⟩ :: rest =>
      .call (.resumeOwn signal) fun result =>
        record (.step "resume_self" (Shown.ofDelivery result)) (steps rest)
  | ⟨.suspended, _⟩ :: rest =>
      .call .ownIsSuspended fun value => record (.step "suspended" (.flag value)) (steps rest)
  | ⟨.emit item, catches⟩ :: rest =>
      .emit item fun result => settle "emit" catches (fun _ => .ok) result (steps rest)
  | ⟨.register name, _⟩ :: rest =>
      .call (.register name) fun isNew => record (.step "register" (.flag isNew)) (steps rest)
  | ⟨.wake name signal, _⟩ :: rest =>
      .call (.wake name signal) fun result =>
        record (.step "wake" (Shown.ofDelivery? result)) (steps rest)
  | ⟨.fail message, _⟩ :: _ => .finish (.error (.plain message))
  | ⟨.panic payload, _⟩ :: _ => .panic payload

/-- The code of the whole script. -/
def program (script : TaskScript) : ScriptProgram := record .started (steps script)

end TaskScript

/-- A detached task that rests for a moment, and fails with a nonempty message. -/
def detachedProgram (message : String) : ScriptProgram :=
  TaskScript.record .detached <|
    .sleep 1 fun
      | .ok () =>
          TaskScript.record .detachedEnd
            (.finish (if message.isEmpty then .ok () else .error (.plain message)))
      | .error error => .finish (.error (AppError.ofTask error))

end EmbeddedHttp.Simulation
