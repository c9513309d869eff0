/-
# EmbeddedHttp.Simulation.TaskRun -- a scripted task, moved step by step

The reactor's part is played by a list of moves: giving the task control with some
message, waiting for what it waits for, resuming it now or later, letting time
pass, giving it up.
-/
import EmbeddedHttp.Simulation.SocketRun

namespace EmbeddedHttp.Simulation

set_option autoImplicit false

/-- What a switch sends into the task. -/
inductive Sending where
  | message (resume : Resume)
  /-- How the last wait ended: a start before any wait, nothing once it was sent. -/
  | outcome

/-- One move. -/
inductive TaskMove where
  | switch (sending : Sending)
  /-- Wait for what the task last asked to wait for. -/
  | wait
  /-- Resume the task from outside after a delay. -/
  | resumeIn (delay : Nat) (signal : Signal)
  | sleep (time : Nat)
  /-- Do nothing. -/
  | look
  /-- Give the task up. -/
  | drop
  | resume (signal : Signal)

/-- What a move comes to. -/
inductive TaskMoved where
  | stepped (step : Step String)
  | waited (outcome : WaitOutcome)
  | stuck
  | later
  | slept
  | looked
  | dropped
  /-- The task was given up before. -/
  | alreadyDropped
  | resumed (result : Except TaskError Unit)

/-- A task between moves. -/
structure TaskRun where
  task : Option (Task String Call Call.Answer)
  lastWait : Wait
  outcome : Resume
  world : World

namespace TaskRun

/-- The name of the only task. -/
def id : TaskId := 0

/-- A task that has not begun. -/
def start (script : TaskScript) : TaskRun :=
  { task := some (.fresh script.program)
    lastWait := Wait.suspend none
    outcome := .start
    world := ({ World.empty with hub := Hub.empty.close }.newTask none).2 }

/-- As the root, wait for something that the world answers, until a limit: the answer,
if it came. -/
def await {α : Type} (poll : World → Poll α × World) (limit : Nat) :
    Nat → World → Option α × World
  | 0, world => (none, world)
  | fuel + 1, world =>
      match poll world with
      | (.ready value, world) => (some value, world)
      | (.pending wake, world) =>
          if limit ≤ world.now then (none, world)
          else await poll limit fuel (world.giveWay ((wake.map (min limit)).getD limit))

/-- As the root, let time pass. -/
def sleep (world : World) (time : Nat) : World :=
  let finish := world.now + time
  let poll := fun world : World =>
    if world.schedule.isSpent then (Poll.pending none, world.reschedule (·.defer none))
    else if finish ≤ world.now then (Poll.ready (), world.reschedule Schedule.spend)
    else (Poll.pending (some finish), world)
  (await poll (finish + stuckAfter) World.patience world).2

/-- Is the task suspended, as its continuation sees it? -/
def isSuspended (run : TaskRun) : Bool := (run.world.cell id).isSuspended

/-- Is the task over?  Nothing is known once it was given up. -/
def isFinished? (run : TaskRun) : Option Bool := run.task.map (·.isFinished)

/-- Make a move. -/
def move (run : TaskRun) (move : TaskMove) : TaskMoved × TaskRun :=
  match run.task with
  | none => (.alreadyDropped, run)
  | some task =>
      match move with
      | .switch sending =>
          let resume := match sending with
            | .message resume => resume
            | .outcome => run.outcome
          let switched := task.switch (World.host id) resume run.world
          (.stepped switched.1,
            { run with
              task := some switched.2.1
              world := switched.2.2
              lastWait := match switched.1 with
                | .suspended wait => wait
                | _ => run.lastWait
              outcome := match sending with
                | .message _ => run.outcome
                | .outcome => .value none })
      | .wait =>
          let since := run.world.now
          let waited := await (fun world => world.awaitTask none none since id run.lastWait)
            (since + stuckAfter) World.patience run.world
          match waited.1 with
          | some outcome =>
              (.waited outcome, { run with world := waited.2, outcome := outcome.resume })
          | none => (.stuck, { run with world := waited.2 })
      | .resumeIn delay signal =>
          (.later, { run with
            world := run.world.launch fun _ world =>
              (.resumption (world.now + delay) id signal, world) })
      | .sleep time => (.slept, { run with world := sleep run.world time })
      | .look => (.looked, run)
      | .drop =>
          (.dropped, { run with task := none, world := task.drop (World.host id) run.world })
      | .resume signal =>
          let delivered := run.world.deliver Schedule.wake id signal
          (.resumed delivered.1, { run with world := delivered.2 })

end TaskRun

end EmbeddedHttp.Simulation
