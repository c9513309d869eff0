/-
# EmbeddedHttp.Reactor.Hub -- submitting work to the reactor from anywhere

Anyone who holds a handle may submit work with a deadline, or ask the server to
stop.  Submissions wait in a channel until the reactor applies them, in order; an
applied one waits for its deadline among the timers.  Each gets a ticket at once,
so it may be cancelled at any time, before it is applied too.  Once the reactor is
gone the channel is closed, and what is submitted is cancelled on the spot.
-/
import EmbeddedHttp.TimerQueue
import EmbeddedHttp.Task.Cell

namespace EmbeddedHttp

set_option autoImplicit false

/-- What a deadline brings about. -/
inductive TimerAction (Job Body : Type) where
  /-- Do a job on the reactor. -/
  | call (job : Job)
  /-- Resume a task, if it is suspended by then. -/
  | resume (task : TaskId)
  /-- Start a detached task. -/
  | spawn (body : Body)

/-- What is sent to the reactor. -/
inductive HubCommand (Job Body : Type) where
  | schedule (deadline : Nat) (action : TimerAction Job Body) (ticket : Ticket)
  /-- Stop, waiting at most so long for open connections. -/
  | stop (grace : Option Nat)

/-- The timers of the reactor and the channel of submissions, oldest first. -/
structure Hub (Job Body : Type) where
  timers : TimerQueue (TimerAction Job Body)
  channel : List (HubCommand Job Body)
  isOpen : Bool

namespace Hub

variable {Job Body : Type}

/-- Nothing submitted. -/
def empty : Hub Job Body := ⟨TimerQueue.empty, [], true⟩

/-- Submit work for a deadline.  Every number is a deadline: one so far ahead that the clock
of a machine could not show it, so that the caller would have none to submit, is taken as
any other. -/
def submit (hub : Hub Job Body) (deadline : Nat) (action : TimerAction Job Body) :
    Ticket × Hub Job Body :=
  let drawn := hub.timers.draw
  if hub.isOpen then
    (drawn.1, { hub with
      timers := drawn.2
      channel := hub.channel ++ [.schedule deadline action drawn.1] })
  else (drawn.1, { hub with timers := (drawn.2.cancel drawn.1).2 })

/-- Ask the server to stop. -/
def requestStop (hub : Hub Job Body) (grace : Option Nat) : Hub Job Body :=
  if hub.isOpen then { hub with channel := hub.channel ++ [.stop grace] } else hub

/-- Cancel submitted work.  The answer tells whether it was still to come. -/
def cancel (hub : Hub Job Body) (ticket : Ticket) : Bool × Hub Job Body :=
  let cancelled := hub.timers.cancel ticket
  (cancelled.1, { hub with timers := cancelled.2 })

/-- Is submitted work still to come? -/
def isActive (hub : Hub Job Body) (ticket : Ticket) : Bool := hub.timers.isActive ticket

/-- The oldest submission, taken out of the channel. -/
def receive? (hub : Hub Job Body) : Option (HubCommand Job Body × Hub Job Body) :=
  match hub.channel with
  | [] => none
  | command :: rest => some (command, { hub with channel := rest })

/-- Apply a submission; one that was cancelled on its way is forgotten.  A request
to stop is handed on. -/
def apply (hub : Hub Job Body) (command : HubCommand Job Body) :
    Option (Option Nat) × Hub Job Body :=
  match command with
  | .schedule deadline action ticket =>
      if hub.timers.isActive ticket then
        (none, { hub with timers := hub.timers.schedule deadline action ticket })
      else (none, hub)
  | .stop grace => (some grace, hub)

/-- The earliest deadline among the timers. -/
def nextDeadline (hub : Hub Job Body) : Option Nat × Hub Job Body :=
  let found := hub.timers.nextDeadline
  (found.1, { hub with timers := found.2 })

/-- Take out everything that is due, in order of deadline and then of submission.
All of it is taken out before any of it is started, so nothing that is started can
keep another back. -/
def popExpired (hub : Hub Job Body) (now : Nat) : List (TimerAction Job Body) × Hub Job Body :=
  let popped := hub.timers.popExpired now
  (popped.1, { hub with timers := popped.2 })

/-- The reactor is gone: what is in the channel and what is scheduled never comes. -/
def close (hub : Hub Job Body) : Hub Job Body :=
  { hub with channel := [], isOpen := false }

end Hub

end EmbeddedHttp
