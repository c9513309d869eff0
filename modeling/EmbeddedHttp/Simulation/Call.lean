/-
# EmbeddedHttp.Simulation.Call -- what scripted code may ask of its surroundings

The code of a scripted task or application acts on its surroundings through these
calls.  Each is answered at once, and none gives up control.
-/
import EmbeddedHttp.Simulation.Entry

namespace EmbeddedHttp.Simulation

set_option autoImplicit false

/-- One call. -/
inductive Call where
  /-- Put an entry into the journal. -/
  | record (entry : Entry)
  /-- Resume the task that makes the call. -/
  | resumeOwn (signal : Signal)
  /-- Is the task that makes the call suspended? -/
  | ownIsSuspended
  /-- Have the task that makes the call resumed from outside after a delay. -/
  | resumeOwnIn (delay : Nat) (signal : Signal)
  /-- Have it resumed by the reactor's timers; is that still to come? -/
  | resumeOwnLater (delay : Nat)
  /-- Leave the task that makes the call where another can resume it. -/
  | park
  /-- Resume the task that was left there. -/
  | wakeParked (signal : Signal)
  /-- Make the task that makes the call the one that is known under a name; is the
  name new? -/
  | register (name : String)
  /-- Resume the task known under a name. -/
  | wake (name : String) (signal : Signal)
  /-- Start a detached task, which fails with a nonempty message. -/
  | detach (message : String)
  /-- Ask the server to stop. -/
  | stop (grace : Option Nat)

namespace Call

/-- What a call is answered with. -/
def Answer : Call → Type
  | .record _ | .resumeOwnIn _ _ | .park | .detach _ | .stop _ => Unit
  | .resumeOwn _ => Except TaskError Unit
  | .ownIsSuspended | .resumeOwnLater _ | .register _ => Bool
  | .wakeParked _ | .wake _ _ => Option (Except TaskError Unit)

end Call

/-- The code of a scripted task, which hands over texts. -/
abbrev ScriptProgram := Program String Call Call.Answer

/-- The code of a scripted application. -/
abbrev ScriptHandler := Handler Call Call.Answer

/-- A step of a script, and whether the script goes on when it fails. -/
structure Guarded (Step : Type) where
  step : Step
  catches : Bool

end EmbeddedHttp.Simulation
