/-
# EmbeddedHttp.Server.Acceptor -- when to accept, when to wake, when to end

The server goes round in a loop.  Each round fires what is due and then either
ends or waits for the first of these: a connection to accept, a submission, the
end of a connection, an instant.  Accepting pauses while too many connections are
open and ends with a request to stop.  Once asked to stop, the server ends as soon
as no connection is open, and after the grace period in any case.
-/
namespace EmbeddedHttp

set_option autoImplicit false

/-- The state of the accept loop.  Times are in milliseconds. -/
structure Acceptor where
  maxConnections : Nat
  /-- How long to wait for open connections, unless the request to stop says. -/
  shutdownGrace : Nat
  /-- When the grace period ends, once asked to stop. -/
  stopAt : Option Nat
  openConnections : Nat
  deriving DecidableEq, Repr

/-- What a round comes to. -/
inductive Verdict where
  | ended
  /-- The grace period is over with connections open. -/
  | graceOver (openConnections : Nat)
  /-- Wait, until an instant at most. -/
  | waiting (accepting : Bool) (wakeAt : Nat)
  deriving DecidableEq, Repr

namespace Acceptor

/-- The longest sleep. -/
def idleTick : Nat := 10 * 1000

/-- An accept loop about to begin. -/
def new (maxConnections shutdownGrace : Nat) : Acceptor :=
  ⟨maxConnections, shutdownGrace, none, 0⟩

/-- May another connection be accepted? -/
def isAccepting (acceptor : Acceptor) : Bool :=
  acceptor.stopAt.isNone && decide (acceptor.openConnections < acceptor.maxConnections)

/-- When to wake at the latest. -/
def wakeAt (acceptor : Acceptor) (now : Nat) (nextDeadline : Option Nat) : Nat :=
  let first := (nextDeadline.map (min (now + idleTick))).getD (now + idleTick)
  (acceptor.stopAt.map (min first)).getD first

/-- What a round comes to. -/
def verdict (acceptor : Acceptor) (now : Nat) (nextDeadline : Option Nat) : Verdict :=
  let waiting := Verdict.waiting acceptor.isAccepting (acceptor.wakeAt now nextDeadline)
  match acceptor.stopAt with
  | none => waiting
  | some deadline =>
      if acceptor.openConnections = 0 then .ended
      else if deadline ≤ now then .graceOver acceptor.openConnections
      else waiting

/-- A connection was accepted. -/
def accepted (acceptor : Acceptor) : Acceptor :=
  { acceptor with openConnections := acceptor.openConnections + 1 }

/-- Some connections ended. -/
def departed (acceptor : Acceptor) (n : Nat) : Acceptor :=
  { acceptor with openConnections := acceptor.openConnections - n }

/-- Asked to stop.  Instants are numbers without a bound: there is always one that is later
by the time of grace, whereas a clock of a machine may be unable to show it. -/
def stop (acceptor : Acceptor) (now : Nat) (grace : Option Nat) : Acceptor :=
  { acceptor with stopAt := some (now + grace.getD acceptor.shutdownGrace) }

end Acceptor

end EmbeddedHttp
