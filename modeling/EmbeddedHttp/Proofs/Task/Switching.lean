/-
# EmbeddedHttp.Proofs.Task.Switching -- a switch is a run of task and driver

`Task.switch` runs code as far as it goes, and a host answers its calls on the way.  Seen
from the cell of the task this is a run of the single steps of `Handshake` (`switch_runs`),
and so are resuming a task (`deliver_runs`) and giving it up (`drop_runs`).  What holds along
every run therefore holds of a task that is switched into and dropped by any host that leaves
the cell to them (`Host.Keeps`).
-/
import EmbeddedHttp.Proofs.Task.Resumption
import EmbeddedHttp.Proofs.Task.Unwinding

namespace EmbeddedHttp

set_option autoImplicit false

variable {Item Call : Type} {Answer : Call → Type} {σ : Type}

/-- A host keeps the cell that is seen in its state: it sets the state word as it is told,
and in answering does no more to the cell than resume the task. -/
structure Host.Keeps (host : Host Call Answer σ) (view : σ → Option Cell) : Prop where
  state : ∀ {s cell}, view s = some cell → host.state s = cell.state
  setState : ∀ {s cell} state, view s = some cell →
    view (host.setState state s) = some (cell.setState state)
  answer : ∀ {s cell} request, view s = some cell → ∃ signals : List Signal,
    view (host.answer request s).2 =
      some (signals.foldl (fun cell signal => (cell.deliver signal).2) cell)

namespace Program

theorem run_wait {host : Host Call Answer σ} {program : Program Item Call Answer} {wait : Wait}
    {next : Continuation Item Call Answer} (stands : program.wait? = some (wait, next))
    (cancelled : Bool) (s : σ) :
    program.run host cancelled s =
      if host.state s = .running then
        if cancelled then run host cancelled (next (.error .cancelled)) (host.setState .running s)
        else (.suspended wait next, host.setState wait.state s)
      else run host cancelled (next (.error .alreadySuspended)) s := by
  cases program <;> cases stands <;> rfl

end Program

namespace Handshake

variable {may : Discipline} {cell : Cell} {thread : Thread Item Call Answer} {driver : Driver}
  {calls : List (Nat × Signal)}

/-! ## Resuming -/

theorem deliver_runs (present : driver ≠ .gone) (signal : Signal) :
    ∃ acts, Run may ⟨cell, thread, driver, calls⟩ acts
      ⟨(cell.deliver signal).2, thread, driver, calls⟩ := by
  rw [Cell.deliver]
  split
  · rename_i later claim
    have claimed : Run may ⟨cell, thread, driver, calls⟩ [.won 0 signal]
        ⟨later, thread, driver, (0, signal) :: calls⟩ := .single (.call (.claims 0 signal claim))
    have posted := claimed.step (.call (.posts List.mem_cons_self present))
    rw [List.erase_cons_head] at posted
    exact ⟨_, posted⟩
  · rename_i later claim
    exact ⟨_, .single (.call (.fails 0 signal claim))⟩

theorem delivers_run (present : driver ≠ .gone) (signals : List Signal) (cell : Cell) :
    ∃ acts, Run may ⟨cell, thread, driver, calls⟩ acts
      ⟨signals.foldl (fun cell signal => (cell.deliver signal).2) cell, thread, driver, calls⟩ := by
  induction signals generalizing cell with
  | nil => exact ⟨[], .here⟩
  | cons signal signals ih =>
      obtain ⟨first, delivered⟩ := deliver_runs present signal
      obtain ⟨rest, run⟩ := ih (cell.deliver signal).2
      exact ⟨_, delivered.append run⟩

/-! ## Running code -/

/-- Task and driver where running code stopped. -/
def stopped (cell : Cell) (driver : Driver) (calls : List (Nat × Signal)) :
    Stop Item Call Answer → Handshake Item Call Answer
  | .suspended wait next => ⟨cell, .parked (.wait wait.kind) next, .asked wait, calls⟩
  | .yielded _ next => ⟨cell, .parked .emit next, .handed, calls⟩
  | .ended result => ⟨cell, .ending (Task.lastStep result), driver, calls⟩

/-- What the driver is told with a stop. -/
def tells : Stop Item Call Answer → List (Act Item)
  | .suspended wait _ => [.stepped (.suspended wait)]
  | .yielded item _ => [.stepped (.yielded item)]
  | .ended _ => []

variable {host : Host Call Answer σ} {view : σ → Option Cell} {cancelled : Bool} {s : σ}

/-- From here code comes to a stop, and its host to a state. -/
def Reaches (may : Discipline) (view : σ → Option Cell) (here : Handshake Item Call Answer)
    (result : Stop Item Call Answer × σ) : Prop :=
  ∃ acts later, view result.2 = some later ∧
    Run may here (acts ++ tells result.1) (stopped later here.driver here.calls result.1)

theorem Reaches.behind {first here : Handshake Item Call Answer} {earlier : List (Act Item)}
    {result : Stop Item Call Answer × σ} (reaches : Reaches may view here result)
    (run : Run may first earlier here) (driver : here.driver = first.driver)
    (calls : here.calls = first.calls) : Reaches may view first result := by
  obtain ⟨acts, later, seen, further⟩ := reaches
  have whole := run.append further
  rw [driver, calls] at whole
  exact ⟨earlier ++ acts, later, seen, by rwa [List.append_assoc]⟩

theorem reaches_wait (keeps : host.Keeps view) {program : Program Item Call Answer} {wait : Wait}
    {next : Continuation Item Call Answer} (stands : program.wait? = some (wait, next))
    (blocked : driver.Blocked cancelled) (seen : view s = some cell)
    (behind : ∀ result {s cell}, view s = some cell →
      Reaches may view ⟨cell, .code cancelled (next result), driver, calls⟩
        ((next result).run host cancelled s)) :
    Reaches may view ⟨cell, .code cancelled program, driver, calls⟩
      (program.run host cancelled s) := by
  rw [Program.run_wait stands, keeps.state seen]
  split
  · rename_i running
    have entered : Run may ⟨cell, .code cancelled program, driver, calls⟩
        [.entered (.wait wait.kind)]
        ⟨cell.setState wait.state, .parking cancelled wait next, driver, calls⟩ :=
      .single (.code (.enters stands (Cell.transition_won.2 ⟨running, rfl⟩)))
    cases cancelled with
    | true =>
        have unwound := entered.step (.code .unwinds)
        exact (behind _ (keeps.setState .running seen)).behind unwound rfl rfl
    | false =>
        rcases blocked with rfl | ⟨-, given⟩
        · exact ⟨_, _, keeps.setState wait.state seen, entered.step (.code .asks)⟩
        · cases given
  · rename_i idle
    have barred : Run may ⟨cell, .code cancelled program, driver, calls⟩
        [.barred (.wait wait.kind)]
        ⟨cell, .code cancelled (next (.error .alreadySuspended)), driver, calls⟩ :=
      .single (.code (.barred stands (Cell.transition_lost.2 ⟨idle, rfl⟩)))
    exact (behind _ seen).behind barred rfl rfl

theorem reaches_code (keeps : host.Keeps view) (program : Program Item Call Answer)
    (blocked : driver.Blocked cancelled) (seen : view s = some cell) :
    Reaches may view ⟨cell, .code cancelled program, driver, calls⟩
      (program.run host cancelled s) := by
  induction program generalizing s cell with
  | finish result =>
      exact ⟨[.ended result], _, keeps.setState .finished seen, .single (.code (.ends rfl))⟩
  | panic payload =>
      exact ⟨[.ended (.error payload.toError)], _, keeps.setState .finished seen,
        .single (.code (.ends rfl))⟩
  | suspend timeout next ih =>
      exact reaches_wait keeps rfl blocked seen fun result _ _ seen => ih result seen
  | trampoline descriptor read write timeout next ih =>
      exact reaches_wait keeps rfl blocked seen fun result _ _ seen => ih _ seen
  | sleep time next ih =>
      exact reaches_wait keeps rfl blocked seen fun result _ _ seen => ih _ seen
  | emit item next ih =>
      cases cancelled with
      | true =>
          have withheld : Run may ⟨cell, .code true (.emit item next), driver, calls⟩ _ _ :=
            .single (.code .withholds)
          exact (ih _ (keeps.setState .running seen)).behind withheld rfl rfl
      | false =>
          rcases blocked with rfl | ⟨-, given⟩
          · exact ⟨[], _, seen, .single (.code .hands)⟩
          · cases given
  | call request next ih =>
      obtain ⟨signals, answered⟩ := keeps.answer request seen
      have present : driver ≠ .gone := by rcases blocked with rfl | ⟨rfl, -⟩ <;> simp
      obtain ⟨acts, delivered⟩ : ∃ acts, Run may
          ⟨cell, .code cancelled (.call request next), driver, calls⟩ acts _ :=
        delivers_run present signals cell
      have acted := delivered.step (.code (.acts (host.answer request s).1))
      exact (ih _ answered).behind acted rfl rfl

/-! ## Switches and drops -/

end Handshake

/-- Where a task stands that nobody is switched into. -/
inductive Task.At : Task Item Call Answer → Thread Item Call Answer → Prop where
  | fresh (body : Program Item Call Answer) : At (.fresh body) (.unborn body)
  | paused (point : Point) (next : Continuation Item Call Answer) :
      At (.paused next) (.parked point next)
  | finished : At .finished .spent

/-- Where a driver stands that was told a step. -/
def Driver.after : Step Item → Driver
  | .suspended wait => .asked wait
  | .yielded _ => .handed
  | .completed | .failed _ => .done

namespace Handshake

variable {may : Discipline} {cell : Cell} {thread : Thread Item Call Answer} {driver : Driver}
  {calls : List (Nat × Signal)} {host : Host Call Answer σ} {view : σ → Option Cell} {s : σ}
  {first : Handshake Item Call Answer} {task : Task Item Call Answer} {resume : Resume}

/-- A task and its driver come from here to a step, and the task and its host to what
`switched` says. -/
def Steps (may : Discipline) (view : σ → Option Cell) (first : Handshake Item Call Answer)
    (acts : List (Act Item)) (switched : Step Item × Task Item Call Answer × σ) : Prop :=
  ∃ between later thread, view switched.2.2 = some later ∧ switched.2.1.At thread ∧
    Run may first (acts ++ between ++ [.stepped switched.1])
      ⟨later, thread, Driver.after switched.1, first.calls⟩

theorem Reaches.steps {here : Handshake Item Call Answer} {acts : List (Act Item)}
    {result : Stop Item Call Answer × σ} (reaches : Reaches may view here result)
    (blocked : here.driver = .blocked) (run : Run may first acts here)
    (calls : here.calls = first.calls) :
    Steps may view first acts
      ((Task.atStop result.1).1, (Task.atStop result.1).2, result.2) := by
  obtain ⟨stop, s⟩ := result
  obtain ⟨between, later, seen, further⟩ := reaches
  have whole := run.append further
  rw [← List.append_assoc, calls] at whole
  cases stop with
  | suspended wait next => exact ⟨between, later, _, seen, .paused _ next, whole⟩
  | yielded item next => exact ⟨between, later, _, seen, .paused _ next, whole⟩
  | ended result =>
      rw [tells, List.append_nil, blocked] at whole
      have told := whole.step (.code .tells)
      refine ⟨between, later, .spent, seen, .finished, ?_⟩
      cases result <;> exact told

/-- **A switch is a run**: it ends with the step that the driver is told. -/
theorem switch_runs (keeps : host.Keeps view) (stands : task.At thread)
    (allowed : may driver resume) (held : driver ≠ .gone) (seen : view s = some cell) :
    Steps may view ⟨cell, thread, driver, calls⟩ [.switched resume]
      (task.switch host resume s) := by
  cases stands with
  | finished =>
      have missed : Run may (⟨cell, .spent, driver, calls⟩ : Handshake Item Call Answer)
          [.switched resume] _ := .single (.drive (.misses allowed held))
      exact ⟨[], cell, .spent, seen, .finished, missed.step (.code .tells)⟩
  | fresh body =>
      cases goesOn : Task.cancels resume with
      | true =>
          have exited : Run may ⟨cell, .unborn body, driver, calls⟩ [.switched resume] _ :=
            .single (.drive (.exits allowed goesOn))
          rw [Task.switch, if_pos goesOn]
          exact ⟨[], cell, .spent, seen, .finished, exited.step (.code .tells)⟩
      | false =>
          have begun : Run may ⟨cell, .unborn body, driver, calls⟩ [.switched resume] _ :=
            .single (.drive (.begins allowed goesOn))
          rw [Task.switch, if_neg (by simp [goesOn])]
          exact (reaches_code keeps body (.inl rfl) seen).steps rfl begun rfl
  | paused point next =>
      have resumed : Run may ⟨cell, .parked point next, driver, calls⟩ [.switched resume] _ :=
        .single (.drive (.resumes allowed))
      have woken : Run may ⟨cell, .waking point resume next, .blocked, calls⟩
          [.left point (Task.received resume)] _ := .single (.code .wakes)
      have reaches : Reaches may view ⟨cell.setState .running, .code (Task.cancels resume)
          (next (Task.received resume)), .blocked, calls⟩ _ :=
        reaches_code keeps (next (Task.received resume)) (.inl rfl) (keeps.setState .running seen)
      exact (reaches.behind woken rfl rfl).steps rfl resumed rfl

/-- **Giving a task up is a run** that ends with the task over and its driver gone. -/
theorem drop_runs (keeps : host.Keeps view) (stands : task.At thread) (held : driver ≠ .gone)
    (seen : view s = some cell) :
    ∃ acts later, view (task.drop host s) = some later ∧
      Run may ⟨cell, thread, driver, calls⟩ (.dropped :: acts) ⟨later, .spent, .gone, calls⟩ := by
  cases stands with
  | finished => exact ⟨[], cell, seen, .single (.drive (.lets held))⟩
  | fresh body => exact ⟨[], cell, seen, .single (.drive .forgets)⟩
  | paused point next =>
      have dropped : Run may ⟨cell, .parked point next, driver, calls⟩ [.dropped] _ :=
        .single (.drive .drops)
      have woken := dropped.step (.code .wakes)
      have reaches : Reaches may view ⟨cell.setState .running, .code true
          (next (Task.received .cancel)), .dropping, calls⟩ _ :=
        reaches_code keeps (next (Task.received .cancel)) (.inr ⟨rfl, rfl⟩)
          (keeps.setState .running seen)
      obtain ⟨acts, later, seen, unwound⟩ := reaches
      obtain ⟨result, ended⟩ :=
        Task.run_cancelled host (next (Task.received .cancel)) (host.setState .running s)
      rw [ended] at unwound
      have spent := woken.append unwound
      exact ⟨_, later, seen, spent.step (.code .frees)⟩

end Handshake

end EmbeddedHttp
