/-
# EmbeddedHttp.Reactor.Action -- what an activity asks of the reactor

A connection, or a task that runs on its own, is an activity: a machine that asks
for one thing at a time and goes on with the answer.  `Action` lists the things
that can be asked for.  Whoever answers them, a real event loop or a simulated
one, decides what the activity gets to see; the activity itself has no other way
to act.
-/
import EmbeddedHttp.Reactor.Notice

namespace EmbeddedHttp

set_option autoImplicit false

/-- What reading gave. -/
inductive Received where
  /-- Nothing came in time. -/
  | timedOut
  /-- Octets; none at all mean that the peer has finished. -/
  | data (bytes : Bytes)
  | failed (fault : IoFault)
  deriving DecidableEq, Repr

/-- One thing that is asked of the reactor, and what each answer leads to. -/
inductive Action (Item Call : Type) (Answer : Call → Type) (σ : Type) where
  /-- Some octets, within a time. -/
  | receive (timeout : Nat) (next : Received → σ)
  /-- A turn at the socket. -/
  | wire (ask : WireAsk) (next : WireAnswer → σ)
  /-- Hold partial segments back, or stop doing so. -/
  | cork (on : Bool) (next : σ)
  /-- Send small segments at once. -/
  | nodelay (next : σ)
  /-- A line for the log. -/
  | tell (notice : Notice) (next : σ)
  /-- The date, as it stands in a head. -/
  | date (next : Bytes → σ)
  /-- A new task: its name, or why it could not be made. -/
  | spawn (next : Except IoFault TaskId → σ)
  /-- Give a task control until it gives control back. -/
  | switch (id : TaskId) (task : Task Item Call Answer) (resume : Resume)
      (next : Step Item → Task Item Call Answer → σ)
  /-- Wait for what a task waits for. -/
  | wait (id : TaskId) (wait : Wait) (next : WaitOutcome → σ)
  /-- Nothing; the activity has ended. -/
  | stop

end EmbeddedHttp
