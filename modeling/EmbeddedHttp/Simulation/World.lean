/-
# EmbeddedHttp.Simulation.World -- simulated surroundings

One value holds everything that activities share: a clock, the journal, the state
words and inboxes of all tasks, the sockets, the hub, and who is to go on next.
Scripted code acts on it through its calls (`World.answer`); time passes only when
nothing is ready.
-/
import EmbeddedHttp.Simulation.AppScript
import EmbeddedHttp.Simulation.Schedule
import EmbeddedHttp.Simulation.Socket
import EmbeddedHttp.Reactor.Hub
import EmbeddedHttp.Reactor.Detached
import EmbeddedHttp.Connection.Machine
import EmbeddedHttp.Server.Acceptor

namespace EmbeddedHttp.Simulation

set_option autoImplicit false

/-- Names a simulated socket. -/
abbrev SocketId := Nat

/-- What is shared with a task, and who drives it. -/
structure TaskSlot where
  cell : Cell
  owner : Party

/-- A call scheduled with the hub. -/
structure ScriptedCall where
  name : String
  panics : Bool

/-- The hub of a simulated run. -/
abbrev ScriptHub := Hub ScriptedCall ScriptProgram

/-- What all connections of a simulated server share. -/
abbrev ScriptService := Service Call Call.Answer

/-- What the world can run on its own. -/
inductive Job where
  /-- Resume a task from outside at an instant. -/
  | resumption (due : Nat) (task : TaskId) (signal : Signal)
  | detached (task : Detached String Call Call.Answer)
  | connection (service : ScriptService) (socket : SocketId)
      (connection : Connection Call Call.Answer)
  /-- Accept connections and fire timers until stopped. -/
  | acceptor (service : ScriptService) (acceptor : Acceptor)

/-- A job under way: since when it waits, until when at most, and its place among
those that wait until the same instant. -/
structure Activity where
  id : ActivityId
  job : Job
  since : Nat
  wake : Option Nat
  turn : Nat

/-- Simulated surroundings. -/
structure World where
  now : Nat
  /-- Newest first. -/
  journal : List Entry
  tasks : List TaskSlot
  sockets : List Socket
  hub : ScriptHub
  /-- Under way, oldest first. -/
  activities : List Activity
  schedule : Schedule
  /-- The root is to go on once something is submitted to the hub. -/
  rootListens : Bool
  /-- The next name and the next turn. -/
  fresh : Nat
  /-- The task that was left for another to resume. -/
  parked : Option TaskId
  registered : List (String × TaskId)
  /-- Connections that wait to be accepted, oldest first. -/
  arrivals : List SocketId
  /-- How many connections ended that the acceptor has not noticed yet. -/
  departures : Nat
  /-- The watchdog fails when it is next called. -/
  watchdogFails : Bool
  /-- The server came to its end. -/
  served : Bool

namespace World

/-- Surroundings in which nothing has happened. -/
def empty : World :=
  { now := 0, journal := [], tasks := [], sockets := [], hub := Hub.empty, activities := []
    schedule := Schedule.empty, rootListens := false, fresh := 0, parked := none
    registered := [], arrivals := [], departures := 0, watchdogFails := false, served := false }

/-- Put an entry into the journal. -/
def tell (world : World) (entry : Entry) : World :=
  { world with journal := entry :: world.journal }

/-- Put entries into the journal, in order. -/
def tellAll (world : World) (entries : List Entry) : World := entries.foldl tell world

/-- What happened, oldest first. -/
def entries (world : World) : List Entry := world.journal.reverse

/-- The journal so far, oldest first, and the world with a new one. -/
def drainJournal (world : World) : List Entry × World :=
  (world.entries, { world with journal := [] })

/-! ## Activities -/

/-- Change who is to go on. -/
def reschedule (world : World) (change : Schedule → Schedule) : World :=
  { world with schedule := change world.schedule }

/-- Start a job; it is ready at once. -/
def launch (world : World) (job : ActivityId → World → Job × World) : World :=
  let id := world.fresh
  let made := job id { world with fresh := id + 1 }
  let world : World := { made.2 with
    activities := made.2.activities ++ [⟨id, made.1, world.now, none, id⟩] }
  world.reschedule (·.wake (some id))

/-- Wake the activities with a property of their job. -/
def wakeWhere (world : World) (isMeant : Job → Bool) : World :=
  (world.activities.filter fun activity => isMeant activity.job).foldl
    (fun world activity => world.reschedule (·.wake (some activity.id))) world

/-- Wake the acceptor. -/
def wakeAcceptor (world : World) : World :=
  world.wakeWhere fun
    | .acceptor .. => true
    | _ => false

/-- Wake the connection on a socket. -/
def wakeSocket (world : World) (id : SocketId) : World :=
  world.wakeWhere fun
    | .connection _ socket _ => socket == id
    | _ => false

/-! ## Tasks -/

/-- The cell of a task. -/
def cell (world : World) (id : TaskId) : Cell :=
  match world.tasks[id]? with
  | some slot => slot.cell
  | none => Cell.new

/-- Set the cell of a task. -/
def setCell (world : World) (id : TaskId) (cell : Cell) : World :=
  { world with tasks := world.tasks.modify id fun slot => { slot with cell := cell } }

/-- A new task, driven by a party. -/
def newTask (world : World) (owner : Party) : TaskId × World :=
  (world.tasks.length, { world with tasks := world.tasks ++ [⟨Cell.new, owner⟩] })

/-- Resume a task, which makes the party that drives it ready in some way. -/
def deliver (world : World) (wake : Schedule → Party → Schedule) (id : TaskId)
    (signal : Signal) : Except TaskError Unit × World :=
  let delivered := (world.cell id).deliver signal
  let world := world.setCell id delivered.2
  match delivered.1, world.tasks[id]? with
  | .ok (), some slot => (.ok (), world.reschedule (wake · slot.owner))
  | result, _ => (result, world)

/-! ## The hub -/

/-- Something was submitted: whoever listens becomes ready. -/
def notifyListeners (world : World) : World :=
  if world.rootListens && world.hub.isOpen then
    { world with rootListens := false }.reschedule (·.wake none)
  else world.wakeAcceptor

/-- Submit work to the hub. -/
def submit (world : World) (deadline : Nat) (action : TimerAction ScriptedCall ScriptProgram) :
    Ticket × World :=
  let submitted := world.hub.submit deadline action
  (submitted.1, { world with hub := submitted.2 }.notifyListeners)

/-- Ask the server to stop. -/
def requestStop (world : World) (grace : Option Nat) : World :=
  { world with hub := world.hub.requestStop grace }.notifyListeners

/-- Start what a deadline brings about. -/
def startAction (world : World) : TimerAction ScriptedCall ScriptProgram → World
  | .call job =>
      let world := world.tell (.called job.name)
      if job.panics then world.tell (.notice .callPanicked) else world
  | .resume task => (world.deliver Schedule.wake task .resume).2
  | .spawn body =>
      world.launch fun owner world =>
        let task := world.newTask (some owner)
        (.detached (Detached.start task.1 body), task.2)

/-- Start everything in the hub that is due at an instant. -/
def fireExpired (world : World) (instant : Nat) : World :=
  let popped := world.hub.popExpired instant
  popped.1.foldl startAction { world with hub := popped.2 }

/-! ## Calls of scripted code -/

/-- The answer to a call of a task. -/
def answer (id : TaskId) (call : Call) (world : World) : call.Answer × World :=
  match call with
  | .record entry => ((), world.tell entry)
  | .resumeOwn signal => world.deliver Schedule.wakeFromTask id signal
  | .ownIsSuspended => ((world.cell id).isSuspended, world)
  | .resumeOwnIn delay signal =>
      ((), world.launch fun _ world => (.resumption (world.now + delay) id signal, world))
  | .resumeOwnLater delay =>
      let submitted := world.submit (world.now + delay) (.resume id)
      (submitted.2.hub.isActive submitted.1, submitted.2)
  | .park => ((), { world with parked := some id })
  | .wakeParked signal =>
      match world.parked with
      | none => (none, world)
      | some task =>
          let delivered :=
            { world with parked := none }.deliver Schedule.wakeFromTask task signal
          (some delivered.1, delivered.2)
  | .register name =>
      ((world.registered.lookup name).isNone,
        { world with
          registered := (name, id) :: world.registered.filter fun known => known.1 != name })
  | .wake name signal =>
      match world.registered.lookup name with
      | none => (none, world)
      | some task =>
          let delivered := world.deliver Schedule.wakeFromTask task signal
          (some delivered.1, delivered.2)
  | .detach message => ((), (world.submit world.now (.spawn (detachedProgram message))).2)
  | .stop grace => ((), world.requestStop grace)

/-- What runs the code of a task in this world. -/
def host (id : TaskId) : Host Call Call.Answer World :=
  { answer := answer id
    state := fun world => (world.cell id).state
    setState := fun state world => world.setCell id ((world.cell id).setState state) }

/-! ## Sockets -/

/-- Use a socket, if there is one. -/
def useSocket {α : Type} (world : World) (id : Option SocketId) (missing : α)
    (use : Socket → List Entry × α × Socket) : α × World :=
  match id, id.bind (world.sockets[·]?) with
  | some id, some socket =>
      let used := use socket
      (used.2.1, { world with sockets := world.sockets.set id used.2.2 }.tellAll used.1)
  | _, _ => (missing, world)

/-- A new socket. -/
def newSocket (world : World) (socket : Socket) : SocketId × World :=
  (world.sockets.length, { world with sockets := world.sockets ++ [socket] })

end World

end EmbeddedHttp.Simulation
