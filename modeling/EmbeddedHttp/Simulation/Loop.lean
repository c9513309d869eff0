/-
# EmbeddedHttp.Simulation.Loop -- running activities under a virtual clock

`World.attempt` answers one thing that a party asks for, or says until when it is
pending.  `World.advance` lets a party go on until something is pending.  Who goes
on next is told by the schedule.  When nobody is to go on the clock jumps to the
next instant for which somebody waits, and those that wait for it become ready in
the order in which they began to wait.

A root that waits gives way (`World.giveWay`): the round is brought to its end, the
loop looks at the descriptors, time may pass, and then the root goes on.  Without a
root, activities go on until none is ready (`World.settle`).
-/
import EmbeddedHttp.Simulation.World

namespace EmbeddedHttp.Simulation.World

set_option autoImplicit false

/-- More moves than any run on scripts of a size that can be written down. -/
def patience : Nat := 1000 * 1000 * 1000 * 1000 * 1000

/-- The date in every head: simulated time says nothing about it. -/
def date : Bytes := Bytes.ofAscii "Thu, 01 Jan 1970 00:00:00 GMT"

/-! ## Answering what is asked for -/

/-- When a time that began at an instant is over. -/
def deadline (since : Nat) (timeout : Option Nat) : Option Nat := timeout.map (since + ·)

/-- Is a deadline past? -/
def isPast (world : World) (deadline : Option Nat) : Bool := deadline.any (· ≤ world.now)

/-- Wait for readiness: of the socket that the party owns if no descriptor is given.
Another descriptor is not ready before the loop has looked at it. -/
def awaitReady (world : World) (party : Party) (socket : Option SocketId) (wait : Wait) :
    Poll (Except IoFault Unit) × World :=
  if wait.interest = .timeoutOnly then (.pending none, world)
  else
    match wait.descriptor, socket with
    | some .unpollable, _ => (.ready (.error .notPollable), world)
    | some descriptor, _ =>
        if world.schedule.hasSeen party then (.ready (.ok ()), world.reschedule (·.unwatch party))
        else if descriptor.isReady wait.interest then
          (.pending none, world.reschedule (·.watch party))
        else (.pending none, world)
    | none, some _ =>
        world.useSocket socket (.pending none) (Socket.confirmReady world.now wait.interest)
    | none, none => (.ready (.error .noDescriptor), world)

/-- Wait for what a task waits for, which a party has done since an instant, as if any
number of waits could end in one go. -/
def awaitTaskFreely (world : World) (party : Party) (socket : Option SocketId) (since : Nat)
    (id : TaskId) (wait : Wait) : Poll WaitOutcome × World :=
  let limit := deadline since wait.timeout
  let spent := fun world : World => world.reschedule Schedule.spend
  match wait.kind with
  | .sleep =>
      if world.isPast limit then (.ready (.resumed (.value none)), spent world)
      else (.pending limit, world)
  | .suspend =>
      match (world.cell id).take? with
      | some (message, cell) => (.ready (.resumed message), spent (world.setCell id cell))
      | none =>
          if world.isPast limit then
            match (world.cell id).expire with
            | (true, cell) => (.ready .timeout, spent (world.setCell id cell))
            | (false, _) => (.pending none, world)
          else (.pending limit, world)
  | .io =>
      match world.awaitReady party socket wait with
      | (.ready (.ok ()), world) => (.ready (.resumed (.value none)), world)
      | (.ready (.error fault), world) => (.ready (.resumed (.error (.io fault))), world)
      | (.pending wake, world) =>
          if world.isPast limit then (.ready .timeout, (spent world).reschedule (·.unwatch party))
          else (.pending (earlier wake limit), world)

/-- Wait for what a task waits for, which a party has done since an instant. -/
def awaitTask (world : World) (party : Party) (socket : Option SocketId) (since : Nat)
    (id : TaskId) (wait : Wait) : Poll WaitOutcome × World :=
  if world.schedule.isSpent then (.pending none, world.reschedule (·.defer party))
  else world.awaitTaskFreely party socket since id wait

/-- Answer what a party asks for, which it has done since an instant. -/
def attempt {σ : Type} {Item : Type} (world : World) (party : Party)
    (socket : Option SocketId) (since : Nat) (action : Action Item Call Call.Answer σ) :
    Poll σ × World :=
  let record := fun (entry : Entry) (next : σ) =>
    world.useSocket socket (.ready next) fun socket =>
      (socket.recorded entry, .ready next, socket)
  match action with
  | .receive timeout next =>
      match world.useSocket socket (.pending none)
          (Socket.receive world.now Connection.readSize) with
      | (.ready received, world) => (.ready (next received), world)
      | (.pending wake, world) =>
          if since + timeout ≤ world.now then (.ready (next .timedOut), world)
          else (.pending (earlier wake (some (since + timeout))), world)
  | .wire ask next =>
      match world.useSocket socket (.pending none) (Socket.wire world.now since ask) with
      | (.ready answer, world) => (.ready (next answer), world)
      | (.pending wake, world) => (.pending wake, world)
  | .cork on next => record (.cork on) next
  | .nodelay next => record .nodelay next
  | .tell notice next => (.ready next, world.tell (.notice notice))
  | .date next => (.ready (next date), world)
  | .spawn next =>
      let task := world.newTask party
      (.ready (next (.ok task.1)), task.2)
  | .switch id task resume next =>
      let switched := task.switch (host id) resume world
      (.ready (next switched.1 switched.2.1), switched.2.2)
  | .wait id wait next =>
      match world.awaitTask party socket since id wait with
      | (.ready outcome, world) => (.ready (next outcome), world)
      | (.pending wake, world) => (.pending wake, world)
  | .stop => (.pending none, world)

/-- A party that went as far as it could: its state, whether it got anywhere, since
when it waits, and until when at most. -/
structure Advanced (σ : Type) where
  state : σ
  moved : Bool
  since : Nat
  wake : Option Nat

/-- Let a party go on until something is pending. -/
def advance {σ : Type} {Item : Type} (next : σ → Action Item Call Call.Answer σ)
    (party : Party) (socket : Option SocketId) :
    Nat → Bool → Nat → σ → World → Advanced σ × World
  | 0, moved, since, state, world => (⟨state, moved, since, none⟩, world)
  | fuel + 1, moved, since, state, world =>
      match world.attempt party socket since (next state) with
      | (.ready state, world) => advance next party socket fuel true world.now state world
      | (.pending wake, world) => (⟨state, moved, since, wake⟩, world)

/-! ## The acceptor -/

/-- The watchdog's turn. -/
def watchdog (world : World) : World :=
  if world.watchdogFails then
    { world with watchdogFails := false }.tell (.notice (.watchdogFailed "watchdog failure"))
  else world

/-- The server came to its end.  Connections that it did not accept are closed. -/
def endServer (world : World) : World :=
  world.arrivals.foldl
    (fun world id => (world.useSocket (some id) () fun socket => ([], (), socket.close)).2)
    { world with hub := world.hub.close, served := true, arrivals := [] }

/-- Let the acceptor go round until it has to wait: its state, and until when, or
nothing once it has ended. -/
def acceptRounds (service : ScriptService) :
    Nat → Acceptor → World → Option (Acceptor × Nat) × World
  | 0, _, world => (none, world)
  | fuel + 1, acceptor, world =>
      let acceptor := acceptor.departed world.departures
      let world := ({ world with departures := 0 }.fireExpired world.now).watchdog
      let next := world.hub.nextDeadline
      let world := { world with hub := next.2 }
      match acceptor.verdict world.now next.1 with
      | .ended => (none, world.endServer)
      | .graceOver n => (none, (world.tell (.notice (.graceOver n))).endServer)
      | .waiting accepting wakeAt =>
          match (if accepting then world.arrivals else []) with
          | socket :: rest =>
              let world := { world with arrivals := rest }.launch fun _ world =>
                (.connection service socket Connection.opened, world)
              acceptRounds service fuel acceptor.accepted world
          | [] =>
              match world.hub.receive? with
              | some (command, hub) =>
                  let applied := hub.apply command
                  let acceptor := match applied.1 with
                    | some grace => acceptor.stop world.now grace
                    | none => acceptor
                  acceptRounds service fuel acceptor { world with hub := applied.2 }
              | none => (some (acceptor, wakeAt), world)

/-! ## Ready activities -/

/-- Take out an activity that has ended. -/
def retire (world : World) (id : ActivityId) : World :=
  { world with activities := world.activities.filter (·.id != id) }

/-- Put back an activity that waits.  One that still waits for the same thing keeps
its place among those that wait. -/
def putBack (world : World) (before : Activity) (job : Job) (moved : Bool) (since : Nat)
    (wake : Option Nat) : World :=
  let turn := if !moved && before.wake == wake then before.turn else world.fresh
  { world with
    fresh := world.fresh + 1
    activities := world.activities.map fun activity =>
      if activity.id == before.id then ⟨before.id, job, since, wake, turn⟩ else activity }

/-- Put back an activity as far as it went. -/
def putBackAt {σ : Type} (world : World) (before : Activity) (done : Advanced σ) (job : σ → Job) :
    World :=
  world.putBack before (job done.state) done.moved done.since done.wake

/-- Let a ready activity go on. -/
def runActivity (world : World) (activity : Activity) : World :=
  let party : Party := some activity.id
  match activity.job with
  | .resumption due task signal =>
      if due ≤ world.now then
        let delivered := world.deliver Schedule.wake task signal
        (delivered.2.tell (.delivered delivered.1)).retire activity.id
      else world.putBack activity activity.job false activity.since (some due)
  | .detached task =>
      let done := world.advance Detached.next party none patience false activity.since task
      match done.1.state.phase with
      | .finished => done.2.retire activity.id
      | _ => done.2.putBackAt activity done.1 .detached
  | .connection service socket connection =>
      let done := world.advance (Connection.next service Peer.unix) party (some socket) patience
        false activity.since connection
      if done.1.state.isOver then
        let closed := done.2.useSocket (some socket) () fun socket => ([], (), socket.close)
        match done.1.state.phase with
        -- the connection unwinds before it would be counted as ended
        | .overflowed => closed.2.retire activity.id
        | _ =>
            { closed.2 with departures := closed.2.departures + 1 }.wakeAcceptor.retire activity.id
      else done.2.putBackAt activity done.1 (.connection service socket)
  | .acceptor service acceptor =>
      match acceptRounds service patience acceptor world with
      | (none, world) => world.retire activity.id
      | (some (acceptor, wakeAt), world) =>
          world.putBack activity (.acceptor service acceptor) true world.now (some wakeAt)

/-- Let the activity that is next have a go.  Is there none? -/
def runNext (world : World) : Bool × World :=
  match world.schedule.next with
  | (none, schedule) => (true, { world with schedule := schedule })
  | (some id, schedule) =>
      let world := { world with schedule := schedule.beginGo }
      match world.activities.find? (·.id == id) with
      | some activity => (false, world.runActivity activity)
      | none => (false, world)

/-! ## Time -/

/-- Put an activity behind those that wait no longer than it. -/
def insertByWake (activity : Activity) : List Activity → List Activity
  | [] => [activity]
  | first :: rest =>
      let key := fun a : Activity => (a.wake.getD 0, a.turn)
      let isLater := decide ((key activity).1 < (key first).1) ||
        ((key activity).1 == (key first).1 && decide ((key activity).2 < (key first).2))
      if isLater then activity :: first :: rest else first :: insertByWake activity rest

/-- The activities that wait for an instant, in the order in which they are woken. -/
def sleepers (world : World) : List Activity :=
  (world.activities.filter (·.wake.isSome)).foldl (fun sorted a => insertByWake a sorted) []

/-- The next instant for which an activity waits. -/
def nextInstant (world : World) : Option Nat := world.sleepers.head?.bind (·.wake)

/-- Let time pass to an instant, and make ready what waits for it. -/
def passTo (world : World) (instant : Nat) : World :=
  let due := world.sleepers.takeWhile fun activity => activity.wake.any (· ≤ instant)
  due.foldl (fun world activity => world.reschedule (·.wakeBetween (some activity.id)))
    { world with now := max world.now instant }

/-! ## With a root -/

/-- Bring a round to its end: activities have a go each, until none is ready or as many
of them had one as may in one round.  The root has a go to see to the others. -/
def finishRound : Nat → World → World
  | 0, world => world.reschedule (·.wake none)
  | n + 1, world =>
      match world.runNext with
      | (true, world) => world
      | (false, world) => finishRound n world

/-- Between two rounds: the loop looks at the descriptors, and if nobody is to go on
then time passes, to the instant for which the root waits at most. -/
def betweenRounds (limit : Nat) (world : World) : World :=
  let wasPutOff := !world.schedule.deferred.isEmpty
  let world := world.reschedule Schedule.look
  let world :=
    if world.schedule.rootReady || wasPutOff then world
    else world.passTo (((world.nextInstant).map (min limit)).getD limit)
  world.reschedule Schedule.bringBack

/-- The root waits, until an instant at most, and has a go afterwards.  It may find
that it has to wait on. -/
def giveWay (world : World) (limit : Nat) : World :=
  (betweenRounds limit (finishRound Schedule.roundLength world)).reschedule
    Schedule.beginRootGo

/-! ## Without a root -/

/-- Let everything that is ready go on, until nothing is. -/
def settleAux : Nat → World → World
  | 0, world => world
  | fuel + 1, world =>
      match world.runNext with
      | (false, world) => settleAux fuel world
      | (true, world) =>
          if world.schedule.hasToLook then
            settleAux fuel ((world.reschedule Schedule.look).reschedule Schedule.bringBack)
          else world

/-- Let everything that is ready go on, until nothing is. -/
def settle (world : World) : World := settleAux patience world

/-- Nothing is ready: let time pass to the next instant for which an activity waits, if
that is before a limit, and let what waits for it go on; otherwise pass to the limit. -/
def pass (world : World) (limit : Nat) : World :=
  match world.nextInstant with
  | some instant =>
      if instant < limit then (world.passTo instant).settle
      else { world with now := max world.now limit }
  | none => { world with now := max world.now limit }

end EmbeddedHttp.Simulation.World
