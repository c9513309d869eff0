/-
# EmbeddedHttp.Simulation.HubRun -- a hub, moved step by step

Submissions are made to a hub, applied, cancelled and fired by hand, and the tasks
that are started get time to run.  Deadlines are counted in hours, which never
pass by themselves.
-/
import EmbeddedHttp.Simulation.TaskRun

namespace EmbeddedHttp.Simulation

set_option autoImplicit false

/-- One move. -/
inductive HubMove where
  | call (hours : Nat) (job : ScriptedCall)
  | spawn (script : TaskScript)
  /-- Have the task known under a name resumed. -/
  | resumeLater (hours : Nat) (name : String)
  | wake (name : String) (signal : Signal)
  | cancel (ticket : Ticket)
  | isActive (ticket : Ticket)
  | stop (grace : Option Nat)
  /-- The reactor goes. -/
  | close
  /-- Let tasks run for some milliseconds. -/
  | run (time : Nat)
  | next
  /-- Apply all submissions, and listen for more. -/
  | pump
  | fire (hours : Nat)

/-- What applying a submission comes to. -/
inductive Applied where
  | scheduled
  | stop (grace : Option Nat)

/-- What a move comes to. -/
inductive HubMoved where
  | ticket (ticket : Ticket)
  /-- No task is known under the name. -/
  | unknown
  | resumed (result : Except TaskError Unit)
  | flag (value : Bool)
  | sent
  | closed
  | ran
  | deadline (hours : Option Nat)
  | applied (list : List Applied)
  | fired

namespace HubRun

/-- Apply submissions, in order. -/
def applyAll (hub : ScriptHub) :
    List (HubCommand ScriptedCall ScriptProgram) → List Applied × ScriptHub
  | [] => ([], hub)
  | command :: rest =>
      let applied := hub.apply command
      let more := applyAll applied.2 rest
      let shown := match applied.1 with
        | some grace => Applied.stop grace
        | none => .scheduled
      (shown :: more.1, more.2)

/-- Submit something. -/
def submit (world : World) (hours : Nat) (action : TimerAction ScriptedCall ScriptProgram) :
    HubMoved × World :=
  let submitted := world.submit hours action
  (.ticket submitted.1, submitted.2)

/-- Do something with the hub, as long as there is one. -/
def whileOpen (world : World) (use : HubMoved × World) : HubMoved × World :=
  if world.hub.isOpen then use else (.closed, world)

/-- Make a move. -/
def move (world : World) : HubMove → HubMoved × World
  | .call hours job => submit world hours (.call job)
  | .spawn script => submit world 0 (.spawn script.program)
  | .resumeLater hours name =>
      match world.registered.lookup name with
      | some task => submit world hours (.resume task)
      | none => (.unknown, world)
  | .wake name signal =>
      match world.registered.lookup name with
      | some task =>
          let delivered := world.deliver Schedule.wake task signal
          (.resumed delivered.1, delivered.2)
      | none => (.unknown, world)
  | .cancel ticket =>
      let cancelled := world.hub.cancel ticket
      (.flag cancelled.1, { world with hub := cancelled.2 })
  | .isActive ticket => (.flag (world.hub.isActive ticket), world)
  | .stop grace => (.sent, world.requestStop grace)
  | .close => (.closed, { world with hub := world.hub.close })
  | .run time => (.ran, TaskRun.sleep world time)
  | .next =>
      let found := world.hub.nextDeadline
      whileOpen world (.deadline found.1, { world with hub := found.2 })
  | .pump =>
      let applied := applyAll { world.hub with channel := [] } world.hub.channel
      whileOpen world (.applied applied.1, { world with hub := applied.2, rootListens := true })
  | .fire hours => whileOpen world (.fired, world.fireExpired hours)

end HubRun

end EmbeddedHttp.Simulation
