/-
# EmbeddedHttp.Simulation.ServerRun -- a server and its clients

A server listens on a simulated machine, and clients connect to it, send, and read
what comes back.  The machine has a file system but no network: a server may listen
on a host and port, but no client gets there.  Between two moves of the clients the
server goes on until it has to wait, so a client always sees all that could be
done so far.
-/
import EmbeddedHttp.Simulation.TaskRun
import EmbeddedHttp.Server.Binding
import EmbeddedHttp.Server.Setup

namespace EmbeddedHttp.Simulation

set_option autoImplicit false

/-- A server to be run, and what it finds at the path it listens at. -/
structure ServerSetup where
  config : Config
  application : Application Call Call.Answer
  spot : Spot
  watchdogFails : Bool

/-- How many octets the path of the fresh directory has in which sockets are put. -/
def ServerSetup.directoryLength : Nat := 15

/-- What a name in the fresh directory offers to a socket. -/
def ServerSetup.spotOf (leftover : Leftover) (name : String) : Spot :=
  Spot.inDirectory directoryLength leftover name

/-- What a path offers to a socket on a machine that has no directories but its root and
`/tmp`.  An empty path leaves the choice of an address to the machine. -/
def ServerSetup.spotAt (path : String) : Spot :=
  match path.toList with
  | [] => .free
  | '/' :: 't' :: 'm' :: 'p' :: '/' :: name =>
      Spot.inDirectory "/tmp".length .nothing (String.ofList name)
  | '/' :: name => Spot.inDirectory 0 .nothing (String.ofList name)
  | _ => Spot.inDirectory 0 .nothing path

/-- Why a client could not connect. -/
inductive ConnectFault where
  /-- There is no network. -/
  | networkUnreachable
  /-- There is no socket at the path. -/
  | notFound
  deriving DecidableEq, Repr

/-- Why a run failed as a whole. -/
inductive ServerFault where
  | bind (error : BindError)
  | connect (fault : ConnectFault)

/-- Names a client. -/
abbrev ClientId := Nat

/-- One move of the clients, or of whoever holds the hub. -/
inductive ServerMove where
  | connect (client : ClientId)
  | send (client : ClientId) (data : Bytes)
  /-- Send no more. -/
  | shut (client : ClientId)
  | close (client : ClientId)
  /-- Read until what came ends in some octets, or to the end of the stream. -/
  | receive (client : ClientId) (ends : Option Bytes)
  /-- Does nothing come for so long? -/
  | quiet (client : ClientId) (time : Nat)
  /-- Wait until there is a task left for others to resume. -/
  | awaitParked
  | pause (time : Nat)
  | stop (grace : Option Nat)
  /-- Wait for the server to come to its end. -/
  | join
  /-- Is there a socket at the path? -/
  | socketExists

/-- How reading ended. -/
inductive ReadEnd where
  | found
  | endOfStream
  | timeout
  deriving DecidableEq, Repr

/-- What a move comes to. -/
inductive ServerMoved where
  | connected
  | flag (value : Bool)
  | received (how : ReadEnd) (data : Bytes)
  | parked
  | ok
  | served
  | nothing

/-- A server and its clients between moves. -/
structure ServerRun where
  world : World
  bound : Bound
  clients : List (ClientId × SocketId)
  /-- The end of the server was waited for. -/
  joined : Bool

namespace ServerRun

/-- How long a client waits for something to come. -/
def clientPatience : Nat := 5000

/-- Start a server. -/
def start (setup : ServerSetup) : Except BindError ServerRun :=
  match setup.config.listen.bind setup.spot with
  | .error error => .error error
  | .ok bound =>
      let world := { World.empty with watchdogFails := setup.watchdogFails }
      let world := match bound with
        | .unix path true => world.tell (.notice (.staleSocketRemoved path))
        | _ => world
      let service := setup.config.service setup.application bound.port
      let world := world.launch fun _ world =>
        (.acceptor service setup.config.acceptor, world)
      .ok ⟨world.settle, bound, [], false⟩

/-- The stream of a client. -/
def pipe? (run : ServerRun) (world : World) (client : ClientId) : Option (SocketId × Pipe) :=
  match run.clients.lookup client with
  | none => none
  | some id =>
      match world.sockets[id]? with
      | some (.piped pipe) => some (id, pipe)
      | _ => none

/-- Change the stream of a client, and let the server go on. -/
def onPipe (run : ServerRun) (client : ClientId) (change : Pipe → Pipe) : ServerRun :=
  match run.pipe? run.world client with
  | none => run
  | some (id, pipe) =>
      let world :=
        { run.world with sockets := run.world.sockets.set id (.piped (change pipe)) }
      { run with world := (world.wakeSocket id).settle }

/-- Let the world go on until something is seen, until a limit: what was seen, if it
was. -/
def await {α : Type} (see : World → Option α) (limit : Nat) : Nat → World → Option α × World
  | 0, world => (none, world)
  | fuel + 1, world =>
      match see world with
      | some value => (some value, world)
      | none =>
          if limit ≤ world.now then (none, world) else await see limit fuel (world.pass limit)

/-- Let the world go on until a client sees something, for so long at most. -/
def watch {α : Type} (run : ServerRun) (client : ClientId) (time : Nat)
    (see : Pipe → Option α) : Option α × ServerRun :=
  let waited := await (fun world => (run.pipe? world client).bind fun pipe => see pipe.2)
    (run.world.now + time) World.patience run.world
  (waited.1, { run with world := waited.2 })

/-- Let the world go on until something is true of it. -/
def awaitWorld (run : ServerRun) (isSo : World → Bool) : ServerRun :=
  { run with
    world := (await (fun world => if isSo world then some () else none)
      (run.world.now + stuckAfter) World.patience run.world).2 }

/-- A client connects. -/
def connect (run : ServerRun) (client : ClientId) : Except ConnectFault ServerRun :=
  match run.bound with
  | .tcp _ => .error .networkUnreachable
  | .unix .. =>
      if run.world.served then .error .notFound
      else
        let socket := run.world.newSocket (.piped Pipe.new)
        let world := { socket.2 with arrivals := socket.2.arrivals ++ [socket.1] }
        .ok { run with
          clients := (client, socket.1) :: run.clients
          world := world.wakeAcceptor.settle }

/-- A client sends, as much at a time as the stream holds.  Is all of it sent before
the server closes its end? -/
def send (run : ServerRun) (client : ClientId) : Nat → Bytes → Bool × ServerRun
  | 0, _ => (false, run)
  | fuel + 1, data =>
      if data.isEmpty then (true, run)
      else
        let watched := run.watch client clientPatience fun pipe =>
          if pipe.outboundEnded then some 0
          else if pipe.clientRoom = 0 then none
          else some pipe.clientRoom
        match watched.1 with
        | some (room + 1) =>
            send (watched.2.onPipe client (·.clientSend (data.take (room + 1)))) client fuel
              (data.drop (room + 1))
        | _ => (false, watched.2)

/-- What a client that reads has seen, if that is enough for it. -/
def enough (ends : Option Bytes) (pipe : Pipe) : Option ReadEnd :=
  if ends.any fun e => !pipe.outbound.isEmpty && e.isSuffixOf pipe.outbound then some .found
  else if pipe.outboundEnded then some .endOfStream
  else none

/-- A client reads. -/
def receive (run : ServerRun) (client : ClientId) (ends : Option Bytes) :
    ServerMoved × ServerRun :=
  let watched := run.watch client clientPatience (enough ends)
  let run := watched.2
  let data := match run.pipe? run.world client with
    | some (_, pipe) => pipe.clientTake.1
    | none => []
  (.received (watched.1.getD .timeout) data, run.onPipe client fun pipe => pipe.clientTake.2)

/-- Make a move. -/
def move (run : ServerRun) : ServerMove → Except ConnectFault (ServerMoved × ServerRun)
  | .connect client =>
      match run.connect client with
      | .ok run => .ok (.connected, run)
      | .error fault => .error fault
  | .send client data =>
      let sent := run.send client World.patience data
      .ok (.flag sent.1, sent.2)
  | .shut client => .ok (.flag true, run.onPipe client Pipe.clientShut)
  | .close client => .ok (.flag true, run.onPipe client Pipe.clientClose)
  | .receive client ends => .ok (run.receive client ends)
  | .quiet client time =>
      let watched := run.watch client time fun pipe =>
        if pipe.outbound.isEmpty && !pipe.outboundEnded then none else some ()
      .ok (.flag watched.1.isNone, watched.2)
  | .awaitParked => .ok (.parked, run.awaitWorld (·.parked.isSome))
  | .pause time =>
      let world := (await (fun _ => (none : Option Unit)) (run.world.now + time) World.patience
        run.world).2
      .ok (.ok, { run with world := world })
  | .stop grace => .ok (.ok, { run with world := (run.world.requestStop grace).settle })
  | .join =>
      if run.joined then .ok (.nothing, run)
      else .ok (.served, { run.awaitWorld (·.served) with joined := true })
  | .socketExists =>
      .ok (.flag (match run.bound with
        | .tcp _ => false
        | .unix .. => !run.world.served), run)

/-- Make moves in order, until one cannot connect. -/
def moves : List ServerMove → ServerRun → Except ConnectFault (List ServerMoved × ServerRun)
  | [], run => .ok ([], run)
  | first :: rest, run => do
      let moved ← run.move first
      let more ← moves rest moved.2
      return (moved.1 :: more.1, more.2)

end ServerRun

/-- What a run of a server shows. -/
structure ServerReport where
  bound : Bound
  moved : List ServerMoved
  log : List Entry

/-- Run a server through moves. -/
def runServer (setup : ServerSetup) (moves : List ServerMove) :
    Except ServerFault ServerReport :=
  match ServerRun.start setup with
  | .error error => .error (.bind error)
  | .ok run =>
      match ServerRun.moves moves run with
      | .error fault => .error (.connect fault)
      | .ok done => .ok ⟨run.bound, done.1, done.2.world.entries⟩

/-! ## A whole process -/

/-- Give up everything that is still under way: the tasks in hand unwind. -/
def World.abandon (world : World) : World :=
  world.activities.foldl
    (fun world activity =>
      match activity.job with
      | .detached task => task.task.drop (World.host task.id) world
      | .connection _ _ connection =>
          match connection.taskInHand? with
          | some (id, task) => task.drop (World.host id) world
          | none => world
      | _ => world)
    world

/-- What a run of a whole process shows: whether the server came to its end, what
the one client read, and the log. -/
structure ProcessReport where
  served : Bool
  data : Bytes
  log : List Entry

/-- Run a server until it comes to its end, with one client that sends something
and reads all that comes. -/
def runProcess (setup : ServerSetup) (sent : Bytes) : Except ServerFault ProcessReport :=
  match ServerRun.start setup with
  | .error error => .error (.bind error)
  | .ok run =>
      match run.connect 0 with
      | .error fault => .error (.connect fault)
      | .ok run =>
          let run := (run.send 0 World.patience sent).2.awaitWorld (·.served)
          let data := match run.pipe? run.world 0 with
            | some (_, pipe) => pipe.outbound
            | none => []
          .ok ⟨run.world.served, data, run.world.abandon.entries⟩

end EmbeddedHttp.Simulation
