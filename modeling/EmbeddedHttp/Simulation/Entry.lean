/-
# EmbeddedHttp.Simulation.Entry -- what a simulated run records

A run on simulated surroundings leaves a journal: every step of a scripted task
with its result, every use of a scripted socket, and every line of the server's
log, in the order in which they happened.
-/
import EmbeddedHttp.Reactor.Notice

namespace EmbeddedHttp.Simulation

set_option autoImplicit false

/-- The result of one step of a script. -/
inductive Shown where
  | ok
  | nothing
  | flag (value : Bool)
  | text (value : String)
  /-- A payload that is not a text. -/
  | other
  | taskError (error : TaskError)
  | appError (error : AppError)
  | read (result : ReadResult)
  | environ (environ : Environ)

namespace Shown

/-- The payload of a resume. -/
def ofPayload : Option Payload → Shown
  | none => .nothing
  | some (.text s) => .text s
  | some (.number _) => .other

/-- The result of resuming a task. -/
def ofDelivery : Except TaskError Unit → Shown
  | .ok () => .ok
  | .error error => .taskError error

/-- The result of resuming a task, if there was one to resume. -/
def ofDelivery? : Option (Except TaskError Unit) → Shown
  | none => .nothing
  | some result => ofDelivery result

/-- A text that may be missing. -/
def ofText? : Option String → Shown
  | none => .nothing
  | some s => .text s

end Shown

/-- One thing that happened. -/
inductive Entry where
  /-- The body of a scripted task began. -/
  | started
  /-- A step of a script was done. -/
  | step (name : String) (result : Shown)
  /-- A step of an application failed with a task error. -/
  | taskError (error : TaskError)
  /-- An application was called. -/
  | application (method path : String)
  /-- A chunk of a body was pulled. -/
  | pull (index : Nat)
  /-- A resume from outside was delivered after its delay. -/
  | delivered (result : Except TaskError Unit)
  /-- A scheduled call was made. -/
  | called (name : String)
  | detached
  | detachedEnd
  /-- A line of the server's log. -/
  | notice (notice : Notice)
  | read (count : Nat)
  | readFault (fault : IoFault)
  /-- Octets accepted by a vectored write that offered so many slices. -/
  | wrote (slices : Nat) (data : Bytes)
  /-- Octets of a file copied to the socket. -/
  | sentFile (data : Bytes)
  | writeFault (fault : IoFault)
  | blocked
  | cork (on : Bool)
  | nodelay

end EmbeddedHttp.Simulation
