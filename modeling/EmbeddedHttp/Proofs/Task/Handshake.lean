/-
# EmbeddedHttp.Proofs.Task.Handshake -- a task, its driver and its resumers, step by step

Three parties meet at the cell of a task.  Calls from anywhere claim a suspension and post
their message; the code of the task moves the state word when it gives up control and when
it gets control back; the driver switches into the task, waits for what it waits for, and
may drop it.  Here every access to the state word or to the inbox is a step of its own, so
that a `Run` is any interleaving of the parties: a claim may win while the deadline passes,
and a message may be posted at any moment after its claim.

Everything that happens is told by an `Act`.  What a driver may switch with, and when, is a
parameter: `prompt` drivers wait for what the task asked to wait for and switch with how
that wait ended.
-/
import EmbeddedHttp.Task.Basic

namespace EmbeddedHttp

set_option autoImplicit false

variable {Item Call : Type} {Answer : Call → Type}

/-! ## Where code stands -/

/-- A point at which code may give up control. -/
inductive Point where
  | wait (kind : WaitKind)
  | emit
  deriving DecidableEq, Repr

/-- Is this a suspension, which calls may end? -/
@[simp] def Point.suspends : Point → Bool
  | .wait .suspend => true
  | _ => false

/-- The state word of a task that gave up control to wait. -/
def Wait.state (wait : Wait) : TaskState :=
  match wait.kind with
  | .suspend => .suspended
  | _ => .waiting

/-- How a wait for readiness or for a fixed time may end. -/
inductive Wait.MayEnd (wait : Wait) : WaitOutcome → Prop where
  | slept (sleeps : wait.kind = .sleep) : MayEnd wait (.resumed (.value none))
  | ready (polls : wait.kind = .io) : MayEnd wait (.resumed (.value none))
  | failed (polls : wait.kind = .io) (fault : IoFault) :
      MayEnd wait (.resumed (.error (.io fault)))
  | timedOut (polls : wait.kind = .io) (limited : wait.timeout.isSome = true) :
      MayEnd wait .timeout

namespace Program

/-- What code at a wait asks for, and how it goes on behind it. -/
def wait? : Program Item Call Answer → Option (Wait × Continuation Item Call Answer)
  | .suspend timeout next => some (Wait.suspend timeout, next)
  | .trampoline descriptor read write timeout next =>
      some (Wait.io descriptor (Interest.ofFlags read write) timeout,
        fun result => next (discard result))
  | .sleep time next => some (Wait.sleep time, fun result => next (discard result))
  | _ => none

/-- The result of code that is at its end. -/
def result? : Program Item Call Answer → Option (Except AppError Unit)
  | .finish result => some result
  | .panic payload => some (.error payload.toError)
  | _ => none

end Program

/-- Is this a step that a task gives control back with for good? -/
def Step.isFinal : Step Item → Bool
  | .completed | .failed _ => true
  | _ => false

/-! ## The parties -/

/-- The task's own side.  A task that was given up runs on as `cancelled`. -/
inductive Thread (Item Call : Type) (Answer : Call → Type) where
  /-- It waits to be switched into for the first time. -/
  | unborn (body : Program Item Call Answer)
  /-- Its code runs. -/
  | code (cancelled : Bool) (program : Program Item Call Answer)
  /-- The state word is moved; control is not given up yet. -/
  | parking (cancelled : Bool) (wait : Wait) (next : Continuation Item Call Answer)
  /-- Control is given up at a point. -/
  | parked (point : Point) (next : Continuation Item Call Answer)
  /-- A message has come; the state word is not set yet. -/
  | waking (point : Point) (resume : Resume) (next : Continuation Item Call Answer)
  /-- Nothing is left to do but to tell how it ended. -/
  | ending (last : Step Item)
  /-- Nothing is left to do. -/
  | spent

namespace Thread

/-- Does the task have the state word that it runs with? -/
@[simp] def runs : Thread Item Call Answer → Bool
  | .unborn _ | .code _ _ => true
  | _ => false

/-- Does code stand inside a suspension? -/
@[simp] def suspends : Thread Item Call Answer → Bool
  | .parking _ wait _ => (Point.wait wait.kind).suspends
  | .parked point _ | .waking point _ _ => point.suspends
  | _ => false

end Thread

/-- The side of the driver. -/
inductive Driver where
  /-- It never switched into the task. -/
  | fresh
  /-- It switched into the task and has no control. -/
  | blocked
  /-- The task asked for a wait. -/
  | asked (wait : Wait)
  /-- The task handed an item over. -/
  | handed
  | waiting (wait : Wait)
  /-- The deadline of a suspension passed. -/
  | late
  /-- A call had claimed the suspension by then, and its message is waited for. -/
  | owed
  | waited (outcome : WaitOutcome)
  /-- The task is over. -/
  | done
  /-- It drops the task, which has to come to its end first. -/
  | dropping
  | gone
  deriving DecidableEq, Repr

/-- When a driver may switch with a message. -/
abbrev Discipline := Driver → Resume → Prop

/-- A driver that waits for what it is asked to wait for, and switches with how that wait
ended. -/
def Driver.prompt : Discipline
  | .fresh, _ | .handed, _ | .done, _ => True
  | .waited outcome, resume => resume = outcome.resume
  | _, _ => False

/-- One thing that happens. -/
inductive Act (Item : Type) where
  /-- A call claims the suspension. -/
  | won (call : Nat) (signal : Signal)
  /-- A call fails: the task is not suspended. -/
  | refused (call : Nat) (signal : Signal)
  /-- A call posts its message, and has succeeded. -/
  | posted (call : Nat) (signal : Signal)
  /-- A call fails: the task is gone. -/
  | bounced (call : Nat) (signal : Signal)
  /-- Code moves the state word to wait. -/
  | entered (point : Point)
  /-- A point gives code its result. -/
  | left (point : Point) (result : Except TaskError (Option Payload))
  /-- A wait fails: the task is suspended already. -/
  | barred (point : Point)
  /-- Code calls something outside. -/
  | acted
  /-- Code comes to its end. -/
  | ended (result : Except AppError Unit)
  | switched (resume : Resume)
  /-- The driver gets control back. -/
  | stepped (step : Step Item)
  | waits
  /-- The driver takes a message out of the inbox. -/
  | took (message : Resume)
  | deadline
  /-- The deadline claims the suspension. -/
  | expired
  /-- The deadline finds the suspension claimed. -/
  | overtaken
  /-- Readiness came, or a fixed time passed. -/
  | waitEnded (outcome : WaitOutcome)
  | dropped
  /-- A dropped task came to its end. -/
  | freed

/-- A task with its driver, and the calls that claimed a suspension but did not post yet. -/
structure Handshake (Item Call : Type) (Answer : Call → Type) where
  cell : Cell
  thread : Thread Item Call Answer
  driver : Driver
  calls : List (Nat × Signal)

namespace Handshake

/-- What is told of a switch into a task that is over. -/
def intoFinished : Step Item := .failed (.plain "switch into a finished task")

/-- What is told of a task that was given up before it began. -/
def neverBegan : Step Item := .failed (.plain "task thread exited")

/-- Nothing has happened to a task with this body. -/
def start (body : Program Item Call Answer) : Handshake Item Call Answer :=
  ⟨Cell.new, .unborn body, .fresh, []⟩

/-! ## Steps -/

/-- A step of some call: it claims the suspension, and posts its message afterwards. -/
inductive Calls : Handshake Item Call Answer → Act Item → Handshake Item Call Answer → Prop where
  | claims {cell later : Cell} {thread : Thread Item Call Answer} {driver : Driver}
      {calls : List (Nat × Signal)} (call : Nat) (signal : Signal)
      (claim : cell.claim = (true, later)) :
      Calls ⟨cell, thread, driver, calls⟩ (.won call signal)
        ⟨later, thread, driver, (call, signal) :: calls⟩
  | fails {cell later : Cell} {thread : Thread Item Call Answer} {driver : Driver}
      {calls : List (Nat × Signal)} (call : Nat) (signal : Signal)
      (claim : cell.claim = (false, later)) :
      Calls ⟨cell, thread, driver, calls⟩ (.refused call signal) ⟨later, thread, driver, calls⟩
  | posts {cell : Cell} {thread : Thread Item Call Answer} {driver : Driver}
      {calls : List (Nat × Signal)} {call : Nat} {signal : Signal}
      (claimed : (call, signal) ∈ calls) (present : driver ≠ .gone) :
      Calls ⟨cell, thread, driver, calls⟩ (.posted call signal)
        ⟨cell.post signal.toResume, thread, driver, calls.erase (call, signal)⟩
  | bounces {cell : Cell} {thread : Thread Item Call Answer}
      {calls : List (Nat × Signal)} {call : Nat} {signal : Signal}
      (claimed : (call, signal) ∈ calls) :
      Calls ⟨cell, thread, .gone, calls⟩ (.bounced call signal)
        ⟨cell, thread, .gone, calls.erase (call, signal)⟩

/-- A step of the task's own side. -/
inductive Codes : Handshake Item Call Answer → Act Item → Handshake Item Call Answer → Prop where
  | enters {cell later : Cell} {driver : Driver} {calls : List (Nat × Signal)}
      {cancelled : Bool} {program : Program Item Call Answer} {wait : Wait}
      {next : Continuation Item Call Answer} (stands : program.wait? = some (wait, next))
      (moved : cell.transition .running wait.state = (true, later)) :
      Codes ⟨cell, .code cancelled program, driver, calls⟩ (.entered (.wait wait.kind))
        ⟨later, .parking cancelled wait next, driver, calls⟩
  | barred {cell later : Cell} {driver : Driver} {calls : List (Nat × Signal)}
      {cancelled : Bool} {program : Program Item Call Answer} {wait : Wait}
      {next : Continuation Item Call Answer} (stands : program.wait? = some (wait, next))
      (stays : cell.transition .running wait.state = (false, later)) :
      Codes ⟨cell, .code cancelled program, driver, calls⟩ (.barred (.wait wait.kind))
        ⟨later, .code cancelled (next (.error .alreadySuspended)), driver, calls⟩
  | asks {cell : Cell} {calls : List (Nat × Signal)} {wait : Wait}
      {next : Continuation Item Call Answer} :
      Codes ⟨cell, .parking false wait next, .blocked, calls⟩ (.stepped (.suspended wait))
        ⟨cell, .parked (.wait wait.kind) next, .asked wait, calls⟩
  /-- A task that was given up does not wait. -/
  | unwinds {cell : Cell} {driver : Driver} {calls : List (Nat × Signal)} {wait : Wait}
      {next : Continuation Item Call Answer} :
      Codes ⟨cell, .parking true wait next, driver, calls⟩
        (.left (.wait wait.kind) (.error .cancelled))
        ⟨cell.setState .running, .code true (next (.error .cancelled)), driver, calls⟩
  | hands {cell : Cell} {calls : List (Nat × Signal)} {item : Item}
      {next : Except TaskError Unit → Program Item Call Answer} :
      Codes ⟨cell, .code false (.emit item next), .blocked, calls⟩ (.stepped (.yielded item))
        ⟨cell, .parked .emit (fun result => next (Program.discard result)), .handed, calls⟩
  /-- A task that was given up hands nothing over. -/
  | withholds {cell : Cell} {driver : Driver} {calls : List (Nat × Signal)} {item : Item}
      {next : Except TaskError Unit → Program Item Call Answer} :
      Codes ⟨cell, .code true (.emit item next), driver, calls⟩
        (.left .emit (.error .cancelled))
        ⟨cell.setState .running, .code true (next (.error .cancelled)), driver, calls⟩
  | wakes {cell : Cell} {driver : Driver} {calls : List (Nat × Signal)} {point : Point}
      {resume : Resume} {next : Continuation Item Call Answer} :
      Codes ⟨cell, .waking point resume next, driver, calls⟩
        (.left point (Task.received resume))
        ⟨cell.setState .running, .code (Task.cancels resume) (next (Task.received resume)),
          driver, calls⟩
  | acts {cell : Cell} {driver : Driver} {calls : List (Nat × Signal)} {cancelled : Bool}
      {request : Call} {next : Answer request → Program Item Call Answer}
      (answer : Answer request) :
      Codes ⟨cell, .code cancelled (.call request next), driver, calls⟩ .acted
        ⟨cell, .code cancelled (next answer), driver, calls⟩
  | ends {cell : Cell} {driver : Driver} {calls : List (Nat × Signal)} {cancelled : Bool}
      {program : Program Item Call Answer} {result : Except AppError Unit}
      (atEnd : program.result? = some result) :
      Codes ⟨cell, .code cancelled program, driver, calls⟩ (.ended result)
        ⟨cell.setState .finished, .ending (Task.lastStep result), driver, calls⟩
  | tells {cell : Cell} {calls : List (Nat × Signal)} {last : Step Item} :
      Codes ⟨cell, .ending last, .blocked, calls⟩ (.stepped last) ⟨cell, .spent, .done, calls⟩
  | frees {cell : Cell} {calls : List (Nat × Signal)} {last : Step Item} :
      Codes ⟨cell, .ending last, .dropping, calls⟩ .freed ⟨cell, .spent, .gone, calls⟩

/-- A step of the driver. -/
inductive Drives (may : Discipline) :
    Handshake Item Call Answer → Act Item → Handshake Item Call Answer → Prop where
  | begins {cell : Cell} {driver : Driver} {calls : List (Nat × Signal)} {resume : Resume}
      {body : Program Item Call Answer} (allowed : may driver resume)
      (goesOn : Task.cancels resume = false) :
      Drives may ⟨cell, .unborn body, driver, calls⟩ (.switched resume)
        ⟨cell, .code false body, .blocked, calls⟩
  | exits {cell : Cell} {driver : Driver} {calls : List (Nat × Signal)} {resume : Resume}
      {body : Program Item Call Answer} (allowed : may driver resume)
      (cancels : Task.cancels resume = true) :
      Drives may ⟨cell, .unborn body, driver, calls⟩ (.switched resume)
        ⟨cell, .ending neverBegan, .blocked, calls⟩
  | resumes {cell : Cell} {driver : Driver} {calls : List (Nat × Signal)} {resume : Resume}
      {point : Point} {next : Continuation Item Call Answer} (allowed : may driver resume) :
      Drives may ⟨cell, .parked point next, driver, calls⟩ (.switched resume)
        ⟨cell, .waking point resume next, .blocked, calls⟩
  | misses {cell : Cell} {driver : Driver} {calls : List (Nat × Signal)} {resume : Resume}
      (allowed : may driver resume) (held : driver ≠ .gone) :
      Drives may ⟨cell, .spent, driver, calls⟩ (.switched resume)
        ⟨cell, .ending intoFinished, .blocked, calls⟩
  | waits {cell : Cell} {thread : Thread Item Call Answer} {calls : List (Nat × Signal)}
      {wait : Wait} :
      Drives may ⟨cell, thread, .asked wait, calls⟩ .waits ⟨cell, thread, .waiting wait, calls⟩
  | takes {cell later : Cell} {thread : Thread Item Call Answer} {calls : List (Nat × Signal)}
      {wait : Wait} {message : Resume} (suspends : wait.kind = .suspend)
      (taken : cell.take? = some (message, later)) :
      Drives may ⟨cell, thread, .waiting wait, calls⟩ (.took message)
        ⟨later, thread, .waited (.resumed message), calls⟩
  | passes {cell : Cell} {thread : Thread Item Call Answer} {calls : List (Nat × Signal)}
      {wait : Wait} (suspends : wait.kind = .suspend) (limited : wait.timeout.isSome = true) :
      Drives may ⟨cell, thread, .waiting wait, calls⟩ .deadline ⟨cell, thread, .late, calls⟩
  | expires {cell later : Cell} {thread : Thread Item Call Answer}
      {calls : List (Nat × Signal)} (expire : cell.expire = (true, later)) :
      Drives may ⟨cell, thread, .late, calls⟩ .expired ⟨later, thread, .waited .timeout, calls⟩
  | yields {cell later : Cell} {thread : Thread Item Call Answer}
      {calls : List (Nat × Signal)} (expire : cell.expire = (false, later)) :
      Drives may ⟨cell, thread, .late, calls⟩ .overtaken ⟨later, thread, .owed, calls⟩
  | takesOwed {cell later : Cell} {thread : Thread Item Call Answer}
      {calls : List (Nat × Signal)} {message : Resume}
      (taken : cell.take? = some (message, later)) :
      Drives may ⟨cell, thread, .owed, calls⟩ (.took message)
        ⟨later, thread, .waited (.resumed message), calls⟩
  | waited {cell : Cell} {thread : Thread Item Call Answer} {calls : List (Nat × Signal)}
      {wait : Wait} {outcome : WaitOutcome} (ends : wait.MayEnd outcome) :
      Drives may ⟨cell, thread, .waiting wait, calls⟩ (.waitEnded outcome)
        ⟨cell, thread, .waited outcome, calls⟩
  | forgets {cell : Cell} {driver : Driver} {calls : List (Nat × Signal)}
      {body : Program Item Call Answer} :
      Drives may ⟨cell, .unborn body, driver, calls⟩ .dropped ⟨cell, .spent, .gone, calls⟩
  | drops {cell : Cell} {driver : Driver} {calls : List (Nat × Signal)} {point : Point}
      {next : Continuation Item Call Answer} :
      Drives may ⟨cell, .parked point next, driver, calls⟩ .dropped
        ⟨cell, .waking point .cancel next, .dropping, calls⟩
  | lets {cell : Cell} {driver : Driver} {calls : List (Nat × Signal)} (held : driver ≠ .gone) :
      Drives may ⟨cell, .spent, driver, calls⟩ .dropped ⟨cell, .spent, .gone, calls⟩

/-- A step of any party. -/
inductive Moves (may : Discipline) (here : Handshake Item Call Answer) (act : Act Item)
    (after : Handshake Item Call Answer) : Prop where
  | call (step : here.Calls act after)
  | code (step : here.Codes act after)
  | drive (step : here.Drives may act after)

/-- Any interleaving of the parties, told by what happens in it. -/
inductive Run (may : Discipline) (first : Handshake Item Call Answer) :
    List (Act Item) → Handshake Item Call Answer → Prop where
  | here : Run may first [] first
  | step {acts : List (Act Item)} {here after : Handshake Item Call Answer} {act : Act Item}
      (run : Run may first acts here) (moved : here.Moves may act after) :
      Run may first (acts ++ [act]) after

variable {may : Discipline} {first middle here after : Handshake Item Call Answer}
  {acts earlier : List (Act Item)} {act : Act Item}

theorem Run.single (moved : first.Moves may act after) : Run may first [act] after :=
  .step .here moved

theorem Run.append (before : Run may first earlier middle) (behind : Run may middle acts after) :
    Run may first (earlier ++ acts) after := by
  induction behind with
  | here => simpa using before
  | step run moved ih =>
      rw [← List.append_assoc]
      exact .step ih moved

end Handshake

/-! ## What the acts tell -/

namespace Act

/-- Is the task given up with this? -/
@[simp] def givesUp : Act Item → Bool
  | .switched resume => Task.cancels resume
  | .dropped => true
  | _ => false

/-- Is this a call that fails because the task is not suspended? -/
def refuses : Act Item → Bool
  | .refused _ _ => true
  | _ => false

/-- Is this something that the body of the task does? -/
def ofBody : Act Item → Bool
  | .entered _ | .left _ _ | .barred _ | .acted | .ended _ => true
  | _ => false

/-- The message of a switch. -/
def switch? : Act Item → Option Resume
  | .switched resume => some resume
  | _ => none

/-- The result of a body at its end. -/
def result? : Act Item → Option (Except AppError Unit)
  | .ended result => some result
  | _ => none

/-- A step that the driver is told at last. -/
def final? : Act Item → Option (Step Item)
  | .stepped step => if step.isFinal then some step else none
  | _ => none

/-- Was the task given up? -/
def givenUp (acts : List (Act Item)) : Bool := acts.any givesUp

/-- The suspension under way, if there is one, by the calls that claimed it so far. -/
@[simp] def follow : Option (List (Nat × Signal)) → Act Item → Option (List (Nat × Signal))
  | _, .entered (.wait .suspend) => some []
  | _, .left _ _ => none
  | some claims, .won call signal => some (claims ++ [(call, signal)])
  | suspension, _ => suspension

/-- The suspension under way behind some acts, by the calls that claimed it. -/
def suspension (acts : List (Act Item)) : Option (List (Nat × Signal)) := acts.foldl follow none

@[simp] theorem givenUp_append (acts : List (Act Item)) (act : Act Item) :
    givenUp (acts ++ [act]) = (givenUp acts || act.givesUp) := by
  simp [givenUp]

@[simp] theorem suspension_append (acts : List (Act Item)) (act : Act Item) :
    suspension (acts ++ [act]) = follow (suspension acts) act := by
  simp [suspension]

end Act

end EmbeddedHttp
