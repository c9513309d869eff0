/-
# EmbeddedHttp.Proofs.Task.Surroundings -- simulated surroundings keep to the cell

The surroundings of simulated tasks touch the cell of a task only as its host should
(`host_keeps`), and a wait that they bring to its end is a run of the driver's steps
(`awaitTaskFreely_runs`).
-/
import EmbeddedHttp.Proofs.Task.Switching

namespace EmbeddedHttp.Simulation.World

set_option autoImplicit false

open Handshake

/-- The cell of a task, if there is one by that name. -/
def view (id : TaskId) (world : World) : Option Cell := world.tasks[id]?.map TaskSlot.cell

variable {world : World} {id task : TaskId} {cell : Cell}

theorem cell_of_view (seen : world.view id = some cell) : world.cell id = cell := by
  obtain ⟨slot, known, rfl⟩ := Option.map_eq_some_iff.1 seen
  rw [World.cell, known]

theorem view_setCell (seen : world.view id = some cell) (later : Cell) :
    (world.setCell id later).view id = some later := by
  obtain ⟨slot, known, rfl⟩ := Option.map_eq_some_iff.1 seen
  simp [view, setCell, known]

theorem view_setCell_ne (other : task ≠ id) (later : Cell) :
    (world.setCell task later).view id = world.view id := by
  simp [view, setCell, other]

theorem view_congr {later : World} (same : later.tasks = world.tasks) :
    later.view id = world.view id := by
  rw [view, view, same]

theorem deliver_tasks (wake : Schedule → Party → Schedule) (signal : Signal) :
    (world.deliver wake task signal).2.tasks =
      (world.setCell task ((world.cell task).deliver signal).2).tasks := by
  rw [deliver]
  split <;> rfl

/-- Resuming a task resumes no other. -/
theorem view_deliver (seen : world.view id = some cell) (wake : Schedule → Party → Schedule)
    (task : TaskId) (signal : Signal) : ∃ signals : List Signal,
    (world.deliver wake task signal).2.view id =
      some (signals.foldl (fun cell signal => (cell.deliver signal).2) cell) := by
  rw [view_congr (deliver_tasks wake signal)]
  by_cases own : task = id
  · subst own
    refine ⟨[signal], ?_⟩
    rw [view_setCell seen, cell_of_view seen]
    rfl
  · exact ⟨[], by rw [view_setCell_ne own, seen]; rfl⟩

theorem wakeWhere_tasks (isMeant : Job → Bool) : (world.wakeWhere isMeant).tasks = world.tasks := by
  rw [wakeWhere]
  generalize world.activities.filter _ = activities
  induction activities generalizing world with
  | nil => rfl
  | cons activity activities ih => exact ih

theorem notifyListeners_tasks : world.notifyListeners.tasks = world.tasks := by
  rw [notifyListeners]
  split
  · rfl
  · exact wakeWhere_tasks _

theorem submit_tasks (deadline : Nat) (action : TimerAction ScriptedCall ScriptProgram) :
    (world.submit deadline action).2.tasks = world.tasks := notifyListeners_tasks

theorem answer_view (seen : world.view id = some cell) (request : Call) :
    ∃ signals : List Signal, (answer id request world).2.view id =
      some (signals.foldl (fun cell signal => (cell.deliver signal).2) cell) := by
  cases request with
  | record entry => exact ⟨[], seen⟩
  | resumeOwn signal => exact view_deliver seen _ id signal
  | ownIsSuspended => exact ⟨[], seen⟩
  | resumeOwnIn delay signal => exact ⟨[], seen⟩
  | resumeOwnLater delay => exact ⟨[], (view_congr (submit_tasks _ _)).trans seen⟩
  | park => exact ⟨[], seen⟩
  | wakeParked signal =>
      rw [answer]
      split
      · exact ⟨[], seen⟩
      · rename_i task _
        have unparked : ({ world with parked := none } : World).view id = some cell := seen
        exact view_deliver unparked _ task signal
  | register name => exact ⟨[], seen⟩
  | wake name signal =>
      rw [answer]
      split
      · exact ⟨[], seen⟩
      · exact view_deliver seen _ _ signal
  | detach message => exact ⟨[], (view_congr (submit_tasks _ _)).trans seen⟩
  | stop grace => exact ⟨[], (view_congr notifyListeners_tasks).trans seen⟩

/-- **The simulated surroundings keep the cell of every task.** -/
theorem host_keeps (id : TaskId) : (host id).Keeps (view id) where
  state seen := by rw [← cell_of_view seen]; rfl
  setState state seen := by
    rw [← cell_of_view seen]
    exact view_setCell seen _
  answer request seen := answer_view seen request

/-! ## Waits -/

theorem tellAll_tasks (entries : List Entry) : (world.tellAll entries).tasks = world.tasks := by
  rw [tellAll]
  induction entries generalizing world with
  | nil => rfl
  | cons entry entries ih => exact ih

theorem useSocket_tasks {α : Type} (socket : Option SocketId) (missing : α)
    (use : Socket → List Entry × α × Socket) :
    (world.useSocket socket missing use).2.tasks = world.tasks := by
  unfold useSocket
  split
  · exact tellAll_tasks _
  · rfl

theorem awaitReady_tasks (world : World) (party : Party) (socket : Option SocketId) (wait : Wait) :
    (world.awaitReady party socket wait).2.tasks = world.tasks := by
  unfold awaitReady
  split
  · rfl
  split
  · rfl
  · split
    · rfl
    · split <;> rfl
  · exact useSocket_tasks _ _ _
  · rfl

theorem limited {since : Nat} {timeout : Option Nat}
    (past : world.isPast (deadline since timeout) = true) : timeout.isSome = true := by
  cases timeout with
  | none => cases past
  | some time => rfl

variable {may : Discipline} {Item Calls : Type} {Answer : Calls → Type}
  {thread : Thread Item Calls Answer} {calls : List (Nat × Signal)}

/-- **A wait that comes to its end is a run** of the driver, with the outcome that it has. -/
theorem awaitTaskFreely_runs {after : World} {party : Party} {socket : Option SocketId}
    {since : Nat} {wait : Wait} {outcome : WaitOutcome} (seen : world.view id = some cell)
    (ended : world.awaitTaskFreely party socket since id wait = (.ready outcome, after)) :
    ∃ acts later, after.view id = some later ∧
      Run may ⟨cell, thread, .waiting wait, calls⟩ acts
        ⟨later, thread, .waited outcome, calls⟩ := by
  rw [awaitTaskFreely] at ended
  split at ended
  · rename_i sleeps
    split at ended <;> cases ended
    exact ⟨_, cell, seen, .single (.drive (.waited (.slept sleeps)))⟩
  · rename_i suspends
    rw [cell_of_view seen] at ended
    split at ended
    · rename_i message rest taken
      cases ended
      exact ⟨_, rest, view_setCell seen rest, .single (.drive (.takes suspends taken))⟩
    · split at ended
      · rename_i past
        split at ended
        · rename_i rest expire
          cases ended
          have late : Run may ⟨cell, thread, .waiting wait, calls⟩ [.deadline] _ :=
            .single (.drive (.passes suspends (limited past)))
          exact ⟨_, rest, view_setCell seen rest, late.step (.drive (.expires expire))⟩
        · cases ended
      · cases ended
  · rename_i polls
    have same := world.awaitReady_tasks party socket wait
    split at ended
    · rename_i later ready
      cases ended
      rw [ready] at same
      exact ⟨_, cell, (view_congr same).trans seen, .single (.drive (.waited (.ready polls)))⟩
    · rename_i fault later failed
      cases ended
      rw [failed] at same
      exact ⟨_, cell, (view_congr same).trans seen,
        .single (.drive (.waited (.failed polls fault)))⟩
    · rename_i wake later pending
      rw [pending] at same
      split at ended <;> cases ended
      rename_i past
      exact ⟨_, cell, (view_congr same).trans seen,
        .single (.drive (.waited (.timedOut polls (limited past))))⟩

/-- A wait that is not at its end yet leaves the cell as it is. -/
theorem awaitTaskFreely_pending {after : World} {party : Party} {socket : Option SocketId}
    {since : Nat} {wait : Wait} {wake : Option Nat}
    (pending : world.awaitTaskFreely party socket since id wait = (.pending wake, after)) :
    after.view id = world.view id := by
  rw [awaitTaskFreely] at pending
  split at pending
  · split at pending <;> cases pending
    rfl
  · split at pending
    · cases pending
    · split at pending
      · split at pending <;> cases pending
        rfl
      · cases pending
        rfl
  · have same := world.awaitReady_tasks party socket wait
    split at pending
    · cases pending
    · cases pending
    · rename_i later waits
      rw [waits] at same
      split at pending <;> cases pending
      exact view_congr same

end EmbeddedHttp.Simulation.World
