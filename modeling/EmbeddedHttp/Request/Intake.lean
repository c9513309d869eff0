/-
# EmbeddedHttp.Request.Intake -- a stream of octets becomes a queue of requests

A parser and the queue that its events are built into.  A fault ends the message
being received: its status is recorded in the queue, where it is answered in turn.
-/
import EmbeddedHttp.Message.Parser
import EmbeddedHttp.Request.Assembly

namespace EmbeddedHttp

set_option autoImplicit false

/-- A parser and the requests read so far. -/
structure Intake where
  parser : Parser
  queue : RequestQueue
  deriving DecidableEq, Repr

namespace Intake

/-- Nothing read. -/
def empty : Intake := ⟨.idle, RequestQueue.empty⟩

/-- What came of feeding pieces. -/
structure Fed where
  intake : Intake
  result : Except ParseError Nat

/-- Feed pieces in order.  The status of a fault is recorded in the queue. -/
def feedAll (limits : Limits) (intake : Intake) (pieces : List Bytes) : Fed :=
  let fed := Parser.executeAll (Assembly.listener limits) pieces 0 intake.parser intake.queue
  match fed.result with
  | .ok n => ⟨⟨fed.parser, fed.listener⟩, .ok n⟩
  | .error fault =>
      ⟨⟨fed.parser, fed.listener.recordFailure fault.status⟩, .error fault⟩

/-- Feed one piece. -/
def feed (limits : Limits) (intake : Intake) (data : Bytes) : Fed :=
  feedAll limits intake [data]

/-- Tell one event to the queue directly. -/
def tell (limits : Limits) (intake : Intake) (event : Event) : Option Refusal × Intake :=
  let told := Assembly.listener limits event intake.queue
  (told.1, { intake with queue := told.2 })

/-- Forget any partial message; the queue stays. -/
def reset (intake : Intake) : Intake := { intake with parser := .idle }

/-- Between messages, and every request taken. -/
def isIdle (intake : Intake) : Bool := intake.queue.isEmpty && intake.parser.isIdle

end Intake

end EmbeddedHttp
