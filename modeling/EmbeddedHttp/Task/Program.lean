/-
# EmbeddedHttp.Task.Program -- the code of a task

The code that runs inside a task is a tree.  At each node it ends, gives up
control at a suspension point, hands an item over, or calls something outside; an
answer selects the branch that goes on.  Being an inductive tree, such code ends
on every path of answers.

`Program.run` runs code until it gives up control or ends.  Whoever runs it
supplies a `Host`: the answers to its calls, and the state word of its task.
Once a task is cancelled its suspension points no longer give up control but fail
at once, so the code runs to its end.
-/
import EmbeddedHttp.Task.Cell

namespace EmbeddedHttp

set_option autoImplicit false

/-- Code that may hand over items, and may make calls that are answered at once. -/
inductive Program (Item Call : Type) (Answer : Call → Type) : Type where
  /-- The end, with the error that the code ends with, if any. -/
  | finish (result : Except AppError Unit)
  | panic (payload : PanicPayload)
  | suspend (timeout : Option Nat)
      (next : Except TaskError (Option Payload) → Program Item Call Answer)
  | trampoline (descriptor : Option Descriptor) (read write : Bool) (timeout : Option Nat)
      (next : Except TaskError Unit → Program Item Call Answer)
  | sleep (time : Nat) (next : Except TaskError Unit → Program Item Call Answer)
  | emit (item : Item) (next : Except TaskError Unit → Program Item Call Answer)
  | call (request : Call) (next : Answer request → Program Item Call Answer)

/-- What runs a task's code: it answers calls, and keeps the task's state word. -/
structure Host (Call : Type) (Answer : Call → Type) (σ : Type) where
  answer : (request : Call) → σ → Answer request × σ
  state : σ → TaskState
  setState : TaskState → σ → σ

/-- The code behind a suspension point, waiting for what the point gives. -/
abbrev Continuation (Item Call : Type) (Answer : Call → Type) :=
  Except TaskError (Option Payload) → Program Item Call Answer

/-- How running code stopped. -/
inductive Stop (Item Call : Type) (Answer : Call → Type) where
  | suspended (wait : Wait) (next : Continuation Item Call Answer)
  | yielded (item : Item) (next : Continuation Item Call Answer)
  | ended (result : Except AppError Unit)

namespace Program

variable {Item Call : Type} {Answer : Call → Type} {σ : Type}

/-- Only whether a suspension point failed is of interest. -/
def discard (result : Except TaskError (Option Payload)) : Except TaskError Unit :=
  match result with
  | .ok _ => .ok ()
  | .error error => .error error

/-- Run code until it gives up control or ends. -/
def run (host : Host Call Answer σ) (cancelled : Bool) :
    Program Item Call Answer → σ → Stop Item Call Answer × σ
  | .finish result, s => (.ended result, host.setState .finished s)
  | .panic payload, s => (.ended (.error payload.toError), host.setState .finished s)
  | .suspend timeout next, s =>
      if host.state s = .running then
        if cancelled then run host cancelled (next (.error .cancelled)) (host.setState .running s)
        else (.suspended (Wait.suspend timeout) next, host.setState .suspended s)
      else run host cancelled (next (.error .alreadySuspended)) s
  | .trampoline descriptor read write timeout next, s =>
      if host.state s = .running then
        if cancelled then run host cancelled (next (.error .cancelled)) (host.setState .running s)
        else
          (.suspended (Wait.io descriptor (Interest.ofFlags read write) timeout)
            (fun result => next (discard result)), host.setState .waiting s)
      else run host cancelled (next (.error .alreadySuspended)) s
  | .sleep time next, s =>
      if host.state s = .running then
        if cancelled then run host cancelled (next (.error .cancelled)) (host.setState .running s)
        else (.suspended (Wait.sleep time) (fun result => next (discard result)),
          host.setState .waiting s)
      else run host cancelled (next (.error .alreadySuspended)) s
  | .emit item next, s =>
      if cancelled then run host cancelled (next (.error .cancelled)) (host.setState .running s)
      else (.yielded item (fun result => next (discard result)), s)
  | .call request next, s =>
      let answered := host.answer request s
      run host cancelled (next answered.1) answered.2

end Program

end EmbeddedHttp
