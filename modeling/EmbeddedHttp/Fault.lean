/-
# EmbeddedHttp.Fault -- what can go wrong, as causes

Three layers of failure.  An `IoFault` comes from a descriptor.  A `TaskError`
is what a suspension point gives to the task that stood there.  An `AppError` is
what an application ends with: a message of its own, or one of the two others
passed on.  An error that was thrown into a task from outside comes back out as
itself (`AppError.ofTask`), so its message survives the trip.
-/
namespace EmbeddedHttp

set_option autoImplicit false

/-! ## Faults of descriptors -/

/-- The kinds of descriptor fault. -/
inductive IoKind where
  | connectionReset
  | brokenPipe
  | interrupted
  | wouldBlock
  | writeZero
  | timedOut
  | invalidInput
  | invalidData
  | permissionDenied
  | outOfMemory
  | other
  deriving DecidableEq, Repr

/-- A fault of a descriptor: its kind, and the text that tells it. -/
structure IoFault where
  kind : IoKind
  message : String
  deriving DecidableEq, Repr

namespace IoFault

/-- The peer closed the connection hard. -/
def reset : IoFault := ⟨.connectionReset, "connection reset"⟩

/-- The peer no longer reads. -/
def brokenPipe : IoFault := ⟨.brokenPipe, "broken pipe"⟩

/-- A signal arrived before anything was done. -/
def interrupted : IoFault := ⟨.interrupted, "operation interrupted"⟩

/-- Nothing can be done now. -/
def wouldBlock : IoFault := ⟨.wouldBlock, "operation would block"⟩

/-- A write that took nothing although there was something to take. -/
def writeZero : IoFault := ⟨.writeZero, "write zero"⟩

/-- Write readiness did not come in time. -/
def writeTimedOut : IoFault := ⟨.timedOut, "write timed out"⟩

/-- A wait for readiness that names no descriptor, outside any connection. -/
def noDescriptor : IoFault :=
  ⟨.invalidInput, "no descriptor to wait on outside a connection"⟩

/-- A descriptor of a kind that has no readiness. -/
def notPollable : IoFault :=
  ⟨.permissionDenied, "Operation not permitted (os error 1)"⟩

/-- A body held in memory passed its limit. -/
def bodyOverLimit : IoFault := ⟨.outOfMemory, "request body over limit"⟩

/-- A fault that is worth another try at once. -/
def isInterrupted (fault : IoFault) : Bool := fault.kind == .interrupted

/-- A fault that is worth another try once the descriptor is ready. -/
def isWouldBlock (fault : IoFault) : Bool := fault.kind == .wouldBlock

end IoFault

/-! ## Errors of tasks and applications -/

mutual

/-- What a suspension point gives to the task instead of a value. -/
inductive TaskError where
  /-- The deadline passed before a resume or readiness. -/
  | timeout
  /-- The task was given up; it is to unwind and return. -/
  | cancelled
  | notSuspended
  | alreadySuspended
  /-- An error injected by whoever resumed the task. -/
  | thrown (error : AppError)
  | io (fault : IoFault)

/-- What an application, or the response protocol on its behalf, ends with. -/
inductive AppError where
  /-- A message of its own. -/
  | plain (message : String)
  /-- A task error passed on as the source. -/
  | fromTask (error : TaskError)
  /-- A descriptor fault passed on as the source. -/
  | fromIo (fault : IoFault)

end

deriving instance DecidableEq, Repr for TaskError, AppError

instance : Inhabited AppError := ⟨.plain ""⟩

mutual

/-- The text of a task error. -/
def TaskError.message : TaskError → String
  | .timeout => "timed out"
  | .cancelled => "task cancelled"
  | .notSuspended => "task is not suspended"
  | .alreadySuspended => "task is already suspended"
  | .thrown error => error.message
  | .io fault => "i/o error while waiting: " ++ fault.message

/-- The text of an application's error: its own, or that of its source. -/
def AppError.message : AppError → String
  | .plain message => message
  | .fromTask error => error.message
  | .fromIo fault => fault.message

end

namespace AppError

/-- A task error that ends an application.  One that was thrown into the task is
the very error that was thrown. -/
def ofTask : TaskError → AppError
  | .thrown error => error
  | error => .fromTask error

/-- The task error at the source, if it is one. -/
def taskError? : AppError → Option TaskError
  | .fromTask error => some error
  | _ => none

/-- Is this a deadline that passed? -/
def isTimeout (error : AppError) : Bool :=
  match error.taskError? with
  | some .timeout => true
  | _ => false

/-- The text of the source, if there is one. -/
def sourceText? : AppError → Option String
  | .plain _ => none
  | .fromTask error => some error.message
  | .fromIo fault => some fault.message

end AppError

/-! ## Panics -/

/-- What a panic carries: a text, or something that has none. -/
inductive PanicPayload where
  | text (message : String)
  | opaqueValue
  deriving DecidableEq, Repr

/-- A panic inside a task ends it with this error. -/
def PanicPayload.toError : PanicPayload → AppError
  | .text message => .plain ("task panicked: " ++ message)
  | .opaqueValue => .plain "task panicked"

end EmbeddedHttp
