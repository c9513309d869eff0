/-
# EmbeddedHttp.Simulation.SocketRun -- runs on one scripted socket

A connection, the draining of an outbox, or the sending of a file is run on a
scripted socket until it is over, or until nothing will ever go on.
-/
import EmbeddedHttp.Simulation.Loop

namespace EmbeddedHttp.Simulation

set_option autoImplicit false

/-- After so many milliseconds a run with nothing to wait for is given up. -/
def stuckAfter : Nat := 100000 * 1000

/-- A run that ended: where, and whether it was given up. -/
structure Ended (σ : Type) where
  state : σ
  isStuck : Bool

/-- Run a machine on the first socket of a world, as the root, until it is over. -/
def runMachine {σ : Type} {Item : Type} (next : σ → Action Item Call Call.Answer σ)
    (isOver : σ → Bool) (limit : Nat) : Nat → Nat → σ → World → Ended σ × World
  | 0, _, state, world => (⟨state, true⟩, world)
  | fuel + 1, since, state, world =>
      let done := world.advance next none (some 0) World.patience false since state
      if isOver done.1.state then (⟨done.1.state, false⟩, done.2)
      else if limit ≤ done.2.now then (⟨done.1.state, true⟩, done.2)
      else
        runMachine next isOver limit fuel done.1.since done.1.state
          (done.2.giveWay ((done.1.wake.map (min limit)).getD limit))

/-- Run a machine on a scripted socket. -/
def runOnSocket {σ : Type} {Item : Type} (next : σ → Action Item Call Call.Answer σ)
    (isOver : σ → Bool) (socket : ScriptedSocket) (state : σ) : Ended σ × World :=
  let world := { World.empty with sockets := [.scripted socket], hub := Hub.empty.close }
  runMachine next isOver stuckAfter World.patience 0 state world

/-- The scripted socket of a run. -/
def socketOf (world : World) : ScriptedSocket :=
  match world.sockets with
  | .scripted socket :: _ => socket
  | _ => ScriptedSocket.new [] []

/-! ## Connections -/

/-- How a connection came to its end. -/
inductive ConnectionEnd where
  | closed
  | broken (fault : IoFault)
  /-- A 64-bit sum left its range. -/
  | overflowed
  | stuck

/-- What a run of a connection shows. -/
structure ConnectionReport where
  ending : ConnectionEnd
  /-- How many octets were written. -/
  sent : Nat
  /-- How many items were left unread. -/
  unread : Nat
  log : List Entry

/-- Run a connection on a scripted socket.  A connection that is given up takes the
task in hand with it. -/
def runConnection (service : ScriptService) (peer : Peer) (socket : ScriptedSocket) :
    ConnectionReport :=
  let done := runOnSocket (Connection.next service peer) Connection.isOver socket
    Connection.opened
  let world :=
    if done.1.isStuck then
      match done.1.state.taskInHand? with
      | some (id, task) => task.drop (World.host id) done.2
      | none => done.2
    else done.2
  let socket := socketOf world
  { ending := match done.1.state.phase with
      | .closed => .closed
      | .broken fault => .broken fault
      | .overflowed => .overflowed
      | _ => .stuck
    sent := socket.accepted
    unread := socket.reads.length
    log := world.entries }

/-! ## Outboxes and files -/

/-- Writing something turn by turn, and what came of it. -/
structure Writing (σ : Type) where
  work : σ
  result : Option (Except IoFault Unit)

/-- The next turn of writing. -/
def Writing.next {σ : Type} (ask : σ → WireAsk) (take : σ → WireAnswer → σ × Option IoFault)
    (isDone : σ → Bool) (writing : Writing σ) : Action Unit Call Call.Answer (Writing σ) :=
  match writing.result with
  | some _ => .stop
  | none =>
      .wire (ask writing.work) fun answer =>
        match take writing.work answer with
        | (work, some fault) => ⟨work, some (.error fault)⟩
        | (work, none) => ⟨work, if isDone work then some (.ok ()) else none⟩

/-- Write something on a scripted socket: what came of it (nothing if it was given
up), where it stopped, and what was recorded. -/
def runWriting {σ : Type} (ask : σ → WireAsk) (take : σ → WireAnswer → σ × Option IoFault)
    (isDone : σ → Bool) (socket : ScriptedSocket) (work : σ) :
    Option (Except IoFault Unit) × σ × List Entry :=
  let start : Writing σ := ⟨work, if isDone work then some (.ok ()) else none⟩
  let done := runOnSocket (Writing.next ask take isDone) (·.result.isSome) socket start
  (done.1.state.result, done.1.state.work, done.2.entries)

/-- Drain an outbox. -/
def runFlush (socket : ScriptedSocket) (outbox : Outbox) (timeout : Nat) :
    Option (Except IoFault Unit) × Outbox × List Entry :=
  let done := runWriting Flush.ask Flush.take Flush.isDone socket (Flush.start outbox timeout)
  (done.1, done.2.1.outbox, done.2.2)

/-- Send `count` octets of a file from a position on. -/
def runTransfer (socket : ScriptedSocket) (body : FileBody) (count timeout : Nat) :
    Option (Except IoFault Nat) × List Entry :=
  let done := runWriting Transfer.ask Transfer.take Transfer.isDone socket
    (Transfer.start body.content body.position count timeout)
  (done.1.map fun result => result.map fun _ => done.2.1.sent, done.2.2)

end EmbeddedHttp.Simulation
