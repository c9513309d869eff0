/-
# EmbeddedHttp.Task.Cell -- the state that a task shares with whoever resumes it

A task is resumed from anywhere through two things it shares: a state word and an
inbox.  A resume first claims the suspension, by moving the state from suspended
to resumed, and only then posts its message, so at most one resume wins a
suspension.  A deadline claims it the other way, by moving the state from
suspended to running.  Each of these moves is one atomic step of its own here
(`claim`, `post`, `expire`, `take?`); `deliver` is the first two in a row.
-/
import EmbeddedHttp.Fault

namespace EmbeddedHttp

set_option autoImplicit false

/-- The name by which the reactor knows a task. -/
abbrev TaskId := Nat

/-- What a resume may carry. -/
inductive Payload where
  | text (s : String)
  | number (n : Nat)
  deriving DecidableEq, Repr

/-- What is sent into a task when it is given control. -/
inductive Resume where
  | start
  | value (payload : Option Payload)
  | error (error : TaskError)
  /-- The task is given up. -/
  | cancel
  deriving DecidableEq, Repr

/-- What the holder of a continuation may do with it. -/
inductive Signal where
  | resume
  | resumeWith (payload : Payload)
  | throw (error : AppError)
  deriving DecidableEq, Repr

/-- The message that a signal posts. -/
def Signal.toResume : Signal → Resume
  | .resume => .value none
  | .resumeWith payload => .value (some payload)
  | .throw error => .error (.thrown error)

/-- The state word of a task. -/
inductive TaskState where
  /-- Its code runs, or it has handed over an item. -/
  | running
  /-- Parked until it is resumed or its deadline passes. -/
  | suspended
  /-- Claimed by a resume. -/
  | resumed
  /-- Parked for readiness or for a fixed time. -/
  | waiting
  | finished
  deriving DecidableEq, Repr

/-- The state word and the inbox, oldest message first. -/
structure Cell where
  state : TaskState
  inbox : List Resume
  deriving DecidableEq, Repr

namespace Cell

/-- The cell of a task that has not run yet. -/
def new : Cell := ⟨.running, []⟩

/-- Set the state word. -/
def setState (cell : Cell) (state : TaskState) : Cell := { cell with state := state }

/-- Is the task suspended? -/
def isSuspended (cell : Cell) : Bool := cell.state == .suspended

/-- Move the state word from one value to another, if it has the former. -/
def transition (cell : Cell) (before after : TaskState) : Bool × Cell :=
  if cell.state = before then (true, cell.setState after) else (false, cell)

/-- A resume claims the suspension. -/
def claim (cell : Cell) : Bool × Cell := cell.transition .suspended .resumed

/-- A message is put into the inbox. -/
def post (cell : Cell) (message : Resume) : Cell :=
  { cell with inbox := cell.inbox ++ [message] }

/-- A deadline claims the suspension. -/
def expire (cell : Cell) : Bool × Cell := cell.transition .suspended .running

/-- The oldest message, and the cell without it. -/
def take? (cell : Cell) : Option (Resume × Cell) :=
  match cell.inbox with
  | [] => none
  | message :: rest => some (message, { cell with inbox := rest })

/-- Resume the task, which fails unless it is suspended. -/
def deliver (cell : Cell) (signal : Signal) : Except TaskError Unit × Cell :=
  match cell.claim with
  | (true, cell) => (.ok (), cell.post signal.toResume)
  | (false, cell) => (.error .notSuspended, cell)

end Cell

/-! ## What a task waits for -/

/-- Readiness that can be waited for. -/
inductive Interest where
  | read
  | write
  | readWrite
  /-- None; only the deadline ends the wait. -/
  | timeoutOnly
  deriving DecidableEq, Repr

/-- The interest in the given directions. -/
def Interest.ofFlags : Bool → Bool → Interest
  | true, true => .readWrite
  | true, false => .read
  | false, true => .write
  | false, false => .timeoutOnly

namespace Interest

/-- Is reading of interest? -/
def includesRead : Interest → Bool
  | .read | .readWrite => true
  | _ => false

/-- Is writing of interest? -/
def includesWrite : Interest → Bool
  | .write | .readWrite => true
  | _ => false

end Interest

/-- A descriptor other than the connection's own, by what it is ready for. -/
inductive Descriptor where
  | pollable (readable writable : Bool)
  /-- It has no readiness at all, like a file. -/
  | unpollable
  deriving DecidableEq, Repr

/-- Is the descriptor ready for one of the directions of interest? -/
def Descriptor.isReady (descriptor : Descriptor) (interest : Interest) : Bool :=
  match descriptor with
  | .pollable readable writable =>
      (readable && interest.includesRead) || (writable && interest.includesWrite)
  | .unpollable => false

/-- The kinds of wait. -/
inductive WaitKind where
  /-- Until a resume or the deadline. -/
  | suspend
  /-- Until readiness or the deadline. -/
  | io
  /-- For a fixed time; reaching the deadline is success. -/
  | sleep
  deriving DecidableEq, Repr

/-- What a task waits for when it gives up control.  Without a descriptor the wait
concerns the connection that owns the task.  Times are in milliseconds. -/
structure Wait where
  kind : WaitKind
  descriptor : Option Descriptor
  interest : Interest
  timeout : Option Nat
  deriving DecidableEq, Repr

namespace Wait

/-- Wait for a resume. -/
def suspend (timeout : Option Nat) : Wait := ⟨.suspend, none, .timeoutOnly, timeout⟩

/-- Wait for readiness. -/
def io (descriptor : Option Descriptor) (interest : Interest) (timeout : Option Nat) : Wait :=
  ⟨.io, descriptor, interest, timeout⟩

/-- Wait for a fixed time. -/
def sleep (time : Nat) : Wait := ⟨.sleep, none, .timeoutOnly, some time⟩

end Wait

/-- How a wait ended: what is sent into the task, and whether the deadline passed. -/
structure WaitOutcome where
  resume : Resume
  timedOut : Bool
  deriving DecidableEq, Repr

namespace WaitOutcome

/-- It ended with a message. -/
def resumed (resume : Resume) : WaitOutcome := ⟨resume, false⟩

/-- The deadline passed. -/
def timeout : WaitOutcome := ⟨.error .timeout, true⟩

end WaitOutcome

end EmbeddedHttp
