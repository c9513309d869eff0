/-
# EmbeddedHttp.Proofs.Server.Serving -- the accept loop among all that acts on it

The accept loop drives a reactor: each of its turns is one round of the reactor, a look at
the next deadline, and a wait for the first of a connection, a submission, the end of a
connection, or an instant.  Meanwhile handles submit, cancel and ask to stop, connections
come to their end, and time passes; all of that may happen between any two steps of the
loop.  A connection gives its slot back when it returns.  One that is lost unwinds before
it would do so.

What a server does to its reactor is a run of the reactor (`reactor_run`).
-/
import EmbeddedHttp.Proofs.Reactor.Dispatch
import EmbeddedHttp.Server.Setup

namespace EmbeddedHttp

set_option autoImplicit false

variable {Job Body : Type}

/-- Is this done by a handle? -/
@[simp] def Reactor.Act.ofHandle : Reactor.Act Job Body → Bool
  | .submitted _ _ _ | .cancelled _ _ | .asked _ => true
  | _ => false

/-- What a submission is to the accept loop. -/
def Acceptor.heed (acceptor : Acceptor) (now : Nat) : HubCommand Job Body → Acceptor
  | .schedule _ _ _ => acceptor
  | .stop grace => acceptor.stop now grace

namespace Server

/-- Where the accept loop stands. -/
inductive Phase where
  /-- About to turn. -/
  | turning
  /-- Firing what is due at the instant at which the turn began. -/
  | firing (now : Nat)
  /-- About to decide, with that instant and the next deadline. -/
  | deciding (now : Nat) (next : Option Nat)
  /-- Waiting, until an instant at most. -/
  | waiting (accepting : Bool) (wakeAt : Nat)
  | ended
  deriving DecidableEq, Repr

/-- What the reactor or a handle may do at an instant in a phase, and the phase after it. -/
inductive Phase.Dispatches (now : Nat) : Phase → Reactor.Act Job Body → Phase → Prop where
  | handle {phase : Phase} {act : Reactor.Act Job Body} (ofHandle : act.ofHandle = true) :
      Dispatches now phase act phase
  | begins : Dispatches now .turning (.began now) (.firing now)
  | round {before : Nat} {act : Reactor.Act Job Body} (ofRound : act.ofRound = true) :
      Dispatches now (.firing before) act (.firing before)
  | looks {before : Nat} {next : Option Nat} :
      Dispatches now (.firing before) (.looked next) (.deciding before next)
  | closes : Dispatches now .ended .closed .ended

/-- One thing that happens to a server. -/
inductive Act (Job Body : Type) where
  /-- Time passes to an instant. -/
  | passed (now : Nat)
  /-- The reactor or a handle does something. -/
  | dispatched (act : Reactor.Act Job Body)
  /-- The loop begins to wait. -/
  | waited (accepting : Bool) (wakeAt : Nat)
  | accepted
  /-- A connection could not be accepted. -/
  | refused
  /-- A submission is applied at an instant. -/
  | applied (now : Nat) (command : HubCommand Job Body)
  /-- The wait is over with nothing to accept or to apply. -/
  | woke
  /-- The loop ended in the turn that began at an instant. -/
  | ended (now : Nat)
  /-- A connection ended and gave its slot back. -/
  | returned
  /-- A connection unwound and did not give its slot back. -/
  | lost

namespace Act

/-- What this is to the reactor. -/
def reactor? : Act Job Body → Option (Reactor.Act Job Body)
  | .dispatched act => some act
  | .applied _ command => some (.applied command)
  | _ => none

/-- When the grace period ends that begins with this, if it has a length of its own or
this one. -/
def stopAt? (shutdownGrace : Nat) : Act Job Body → Option Nat
  | .applied now (.stop grace) => some (now + grace.getD shutdownGrace)
  | _ => none

/-- Was a connection accepted? -/
def isAccepted : Act Job Body → Bool
  | .accepted => true
  | _ => false

/-- Was a slot given back? -/
def isReturned : Act Job Body → Bool
  | .returned => true
  | _ => false

/-- Was a slot lost? -/
def isLost : Act Job Body → Bool
  | .lost => true
  | _ => false

/-- Does this leave the slots and the grace period as they are? -/
def isIdle : Act Job Body → Bool
  | .accepted | .returned | .lost | .applied _ (.stop _) => false
  | _ => true

theorem idle_facts {act : Act Job Body} (idle : act.isIdle = true) :
    (∀ shutdownGrace, act.stopAt? shutdownGrace = none) ∧ act.isAccepted = false ∧
      act.isReturned = false ∧ act.isLost = false := by
  cases act with
  | applied now command =>
      cases command with
      | schedule deadline action ticket => exact ⟨fun _ => rfl, rfl, rfl, rfl⟩
      | stop grace => cases idle
  | accepted | returned | lost => cases idle
  | _ => exact ⟨fun _ => rfl, rfl, rfl, rfl⟩

end Act

end Server

/-- A server: its reactor, its accept loop, the time, and how many connections are open. -/
structure Server (Job Body : Type) where
  reactor : Reactor Job Body
  acceptor : Acceptor
  phase : Server.Phase
  now : Nat
  connections : Nat

namespace Server

/-- A server about to begin. -/
def start (acceptor : Acceptor) : Server Job Body := ⟨Reactor.start, acceptor, .turning, 0, 0⟩

/-- One step of the accept loop, of a handle, of a connection, or of time. -/
inductive Step : Server Job Body → Act Job Body → Server Job Body → Prop where
  | passes {server : Server Job Body} {now : Nat} (later : server.now ≤ now) :
      Step server (.passed now) { server with now := now }
  | dispatches {server : Server Job Body} {act : Reactor.Act Job Body}
      {reactor : Reactor Job Body} {phase : Phase} (moved : server.reactor.Step act reactor)
      (goes : server.phase.Dispatches server.now act phase) :
      Step server (.dispatched act) { server with reactor := reactor, phase := phase }
  | waits {server : Server Job Body} {now wakeAt : Nat} {next : Option Nat} {accepting : Bool}
      (deciding : server.phase = .deciding now next)
      (verdict : server.acceptor.verdict now next = .waiting accepting wakeAt) :
      Step server (.waited accepting wakeAt) { server with phase := .waiting accepting wakeAt }
  | ends {server : Server Job Body} {now : Nat} {next : Option Nat}
      (deciding : server.phase = .deciding now next)
      (verdict : ∀ accepting wakeAt, server.acceptor.verdict now next ≠ .waiting accepting wakeAt) :
      Step server (.ended now) { server with phase := .ended }
  | accepts {server : Server Job Body} {wakeAt : Nat}
      (waiting : server.phase = .waiting true wakeAt) :
      Step server .accepted { server with
        acceptor := server.acceptor.accepted
        phase := .turning
        connections := server.connections + 1 }
  | refuses {server : Server Job Body} {wakeAt : Nat}
      (waiting : server.phase = .waiting true wakeAt) :
      Step server .refused { server with phase := .turning }
  | applies {server : Server Job Body} {command : HubCommand Job Body}
      {reactor : Reactor Job Body} {accepting : Bool} {wakeAt : Nat}
      (waiting : server.phase = .waiting accepting wakeAt)
      (moved : server.reactor.Step (.applied command) reactor) :
      Step server (.applied server.now command) { server with
        reactor := reactor
        acceptor := server.acceptor.heed server.now command
        phase := .turning }
  | wakes {server : Server Job Body} {accepting : Bool} {wakeAt : Nat}
      (waiting : server.phase = .waiting accepting wakeAt) :
      Step server .woke { server with phase := .turning }
  | returns {server : Server Job Body} {rest : Nat} (isOpen : server.connections = rest + 1) :
      Step server .returned { server with
        acceptor := server.acceptor.departed 1
        connections := rest }
  /-- A connection unwinds.  An overflow while it makes room for a body is what makes it do so
  (`EmbeddedHttp.Phase.overflowed`); the state of a server does not show it, so here any open
  connection may.  `EmbeddedHttp.Proofs.Server.Simulated` ties the two. -/
  | loses {server : Server Job Body} {rest : Nat} (isOpen : server.connections = rest + 1) :
      Step server .lost { server with connections := rest }

/-! ## The reactor of a server -/

variable {trace : List (Act Job Body)} {server after : Server Job Body} {acceptor : Acceptor}

/-- **The reactor of a server runs as a reactor**, so whatever holds along every run of one
holds in every server. -/
theorem reactor_run (run : Runs Step (start acceptor) trace server) :
    Runs Reactor.Step Reactor.start (trace.filterMap Act.reactor?) server.reactor := by
  induction run with
  | here => exact .here
  | next run moved ih =>
      rw [told_concat]
      cases moved with
      | dispatches moved goes => exact ih.next moved
      | applies waiting moved => exact ih.next moved
      | _ => exact (List.append_nil _).symm ▸ ih

/-- What the reactor or handles do while the loop stays in its phase. -/
theorem runs_dispatched {acts : List (Reactor.Act Job Body)} {reactor later : Reactor Job Body}
    {phase : Phase} {now connections : Nat} (run : Runs Reactor.Step reactor acts later)
    (goes : ∀ act ∈ acts, phase.Dispatches now act phase) :
    Runs Step ⟨reactor, acceptor, phase, now, connections⟩ (acts.map .dispatched)
      ⟨later, acceptor, phase, now, connections⟩ := by
  induction run with
  | here => exact .here
  | next run moved ih =>
      rw [List.map_append]
      obtain ⟨earlier, last⟩ := List.forall_mem_append.1 goes
      exact (ih earlier).next (.dispatches moved (last _ List.mem_cons_self))

/-- **A turn begins with a round of the reactor**, which fires what is due. -/
theorem runs_firing (hub : Hub Job Body) (acceptor : Acceptor) (clock now connections : Nat)
    (notEarlier : clock ≤ now) :
    ∃ trace, Runs Step ⟨⟨hub, .free, clock⟩, acceptor, .turning, now, connections⟩ trace
      ⟨⟨(hub.popExpired now).2, .free, now⟩, acceptor, .firing now, now, connections⟩ := by
  obtain ⟨acts, run, ofRound, -⟩ := Reactor.runs_round (fun _ => .done) (fun action => .done action)
    hub clock notEarlier
  obtain ⟨begun, moved, rest⟩ := run.cons_inv
  have begins : Runs Step ⟨⟨hub, .free, clock⟩, acceptor, .turning, now, connections⟩ _ _ :=
    .single (.dispatches moved .begins)
  exact ⟨_, begins.append (runs_dispatched rest fun act member => .round (ofRound act member))⟩

/-- With nothing among the timers a turn changes nothing. -/
theorem runs_idle_turn {hub : Hub Job Body} {clock now : Nat}
    (idle : hub.timers = TimerQueue.empty) (acceptor : Acceptor) (connections : Nat)
    (notEarlier : clock ≤ now) :
    ∃ trace, Runs Step ⟨⟨hub, .free, clock⟩, acceptor, .turning, now, connections⟩ trace
      ⟨⟨hub, .free, now⟩, acceptor, .deciding now none, now, connections⟩ := by
  obtain ⟨trace, run⟩ := runs_firing hub acceptor clock now connections notEarlier
  have popped : hub.timers.popExpired now = ([], hub.timers) := by
    rw [idle]
    exact TimerQueue.popExpired_of_none rfl
  have next : hub.timers.nextDeadline = (none, hub.timers) := by
    rw [idle]
    simp [TimerQueue.nextDeadline, TimerQueue.empty, Heap.drainWhile, Heap.peek?]
  rw [Hub.popExpired, popped] at run
  have looked := run.next (.dispatches .looks .looks)
  rw [Hub.nextDeadline, next] at looked
  exact ⟨_, looked⟩

end Server

end EmbeddedHttp
