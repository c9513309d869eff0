/-
# EmbeddedHttp.Reactor.Detached -- a task that no connection owns

A detached task is driven on its own: what it hands over is dropped, its waits are
waited for, and its failure is told to the operator.
-/
import EmbeddedHttp.Reactor.Action

namespace EmbeddedHttp

set_option autoImplicit false

/-- Where a detached task stands. -/
inductive DetachedPhase where
  /-- About to be given control. -/
  | switching (resume : Resume)
  | waiting (wait : Wait)
  /-- Telling that it failed. -/
  | tellingFailure (error : AppError)
  | finished
  deriving DecidableEq, Repr

/-- A task that runs on its own. -/
structure Detached (Item Call : Type) (Answer : Call → Type) where
  id : TaskId
  task : Task Item Call Answer
  phase : DetachedPhase

namespace Detached

variable {Item Call : Type} {Answer : Call → Type}

/-- A task that has not begun. -/
def start (id : TaskId) (body : Program Item Call Answer) : Detached Item Call Answer :=
  ⟨id, .fresh body, .switching .start⟩

/-- The phase after what the task said when it gave control back. -/
def phaseAfter : Step Item → DetachedPhase
  | .suspended wait => .waiting wait
  | .yielded _ => .switching (.value none)
  | .completed => .finished
  | .failed error => .tellingFailure error

/-- What the task asks for now. -/
def next (detached : Detached Item Call Answer) :
    Action Item Call Answer (Detached Item Call Answer) :=
  match detached.phase with
  | .switching resume =>
      .switch detached.id detached.task resume fun step task =>
        { detached with task := task, phase := phaseAfter step }
  | .waiting wait =>
      .wait detached.id wait fun outcome => { detached with phase := .switching outcome.resume }
  | .tellingFailure error => .tell (.detachedFailed error) { detached with phase := .finished }
  | .finished => .stop

end Detached

end EmbeddedHttp
