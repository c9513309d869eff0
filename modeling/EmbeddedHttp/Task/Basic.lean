/-
# EmbeddedHttp.Task.Basic -- switching into a task

A task is code that has not begun, code that stands at a suspension point, or
code that is over.  `Task.switch` gives it control until it gives control back,
and says how it did (`Step`).  A task that is over is never run again, and a task
that is given up before it began never runs at all.  Giving a task up in the
middle (`Task.drop`) lets its code unwind to the end.
-/
import EmbeddedHttp.Task.Program

namespace EmbeddedHttp

set_option autoImplicit false

/-- What a task says when it gives control back. -/
inductive Step (Item : Type) where
  | suspended (wait : Wait)
  | yielded (item : Item)
  | completed
  | failed (error : AppError)

/-- A task, by where its code stands. -/
inductive Task (Item Call : Type) (Answer : Call → Type) where
  | fresh (body : Program Item Call Answer)
  | paused (next : Continuation Item Call Answer)
  | finished

namespace Task

variable {Item Call : Type} {Answer : Call → Type} {σ : Type}

/-- Is the task over? -/
def isFinished : Task Item Call Answer → Bool
  | .finished => true
  | _ => false

/-- The step that a result amounts to. -/
def lastStep : Except AppError Unit → Step Item
  | .ok () => .completed
  | .error error => .failed error

/-- The step, and the task, at a stop. -/
def atStop : Stop Item Call Answer → Step Item × Task Item Call Answer
  | .suspended wait next => (.suspended wait, .paused next)
  | .yielded item next => (.yielded item, .paused next)
  | .ended result => (lastStep result, .finished)

/-- What a suspension point gives for a message. -/
def received : Resume → Except TaskError (Option Payload)
  | .start => .ok none
  | .value payload => .ok payload
  | .error error => .error error
  | .cancel => .error .cancelled

/-- Is the task given up with this message? -/
def cancels : Resume → Bool
  | .cancel => true
  | _ => false

/-- Give the task control until it gives control back. -/
def switch (host : Host Call Answer σ) (task : Task Item Call Answer) (resume : Resume) (s : σ) :
    Step Item × Task Item Call Answer × σ :=
  match task with
  | .finished => (.failed (.plain "switch into a finished task"), .finished, s)
  | .fresh body =>
      if cancels resume then (.failed (.plain "task thread exited"), .finished, s)
      else
        let stop := Program.run host false body s
        let stepped := atStop stop.1
        (stepped.1, stepped.2, stop.2)
  | .paused next =>
      let stop :=
        Program.run host (cancels resume) (next (received resume)) (host.setState .running s)
      let stepped := atStop stop.1
      (stepped.1, stepped.2, stop.2)

/-- Give the task up: code that has begun unwinds to its end. -/
def drop (host : Host Call Answer σ) (task : Task Item Call Answer) (s : σ) : σ :=
  match task with
  | .paused next =>
      (Program.run host true (next (.error .cancelled)) (host.setState .running s)).2
  | _ => s

end Task

end EmbeddedHttp
