/-
# EmbeddedHttp.Proofs.Task.Waiting -- no wait gives a task up

A task is given up by the connection that drives it, never through its cell: what a
resume posts carries a value or an error.  So however a cell is moved, every message in
its inbox lets the task go on (`Cell.Reached.goesOn`), and so does the end of every wait
(`World.awaitTask_goesOn`).
-/
import EmbeddedHttp.Simulation.Loop

namespace EmbeddedHttp

set_option autoImplicit false

theorem Signal.toResume_goesOn (signal : Signal) : Task.cancels signal.toResume = false := by
  cases signal <;> rfl

namespace Cell

/-- What may happen to a cell: its state word is set, it is resumed, a deadline claims it, or
its oldest message is taken. -/
inductive Step (cell : Cell) : Cell → Prop where
  | setState (state : TaskState) : Step cell (cell.setState state)
  | deliver (signal : Signal) : Step cell (cell.deliver signal).2
  | expire : Step cell cell.expire.2
  | take {message : Resume} {rest : Cell} (taken : cell.take? = some (message, rest)) :
      Step cell rest

/-- A cell that a new one has come to. -/
inductive Reached : Cell → Prop where
  | new : Reached Cell.new
  | step {cell after : Cell} (reached : Reached cell) (step : cell.Step after) : Reached after

/-- No message in the inbox gives the task up. -/
def GoesOn (cell : Cell) : Prop := ∀ message ∈ cell.inbox, Task.cancels message = false

theorem transition_inbox (cell : Cell) (before after : TaskState) :
    (cell.transition before after).2.inbox = cell.inbox := by
  rw [transition]
  split <;> rfl

theorem take?_inbox {cell rest : Cell} {message : Resume}
    (taken : cell.take? = some (message, rest)) : cell.inbox = message :: rest.inbox := by
  rw [take?] at taken
  split at taken
  · cases taken
  · rename_i inbox
    cases taken
    exact inbox

theorem GoesOn.step {cell after : Cell} (goesOn : cell.GoesOn) (step : cell.Step after) :
    after.GoesOn := by
  cases step with
  | setState state => exact goesOn
  | expire =>
      intro message member
      rw [expire, transition_inbox] at member
      exact goesOn message member
  | take taken =>
      intro message member
      refine goesOn message ?_
      rw [take?_inbox taken]
      exact List.mem_cons_of_mem _ member
  | deliver signal =>
      have claimed := transition_inbox cell .suspended .resumed
      intro message member
      rw [deliver] at member
      split at member
      · rename_i later claims
        rw [← claim, claims] at claimed
        rcases List.mem_append.1 member with early | last
        · exact goesOn message (claimed ▸ early)
        · rw [List.mem_singleton.1 last]
          exact signal.toResume_goesOn
      · rename_i later claims
        rw [← claim, claims] at claimed
        exact goesOn message (claimed ▸ member)

/-- **No message that reaches a cell gives its task up.** -/
theorem Reached.goesOn {cell : Cell} (reached : cell.Reached) : cell.GoesOn := by
  induction reached with
  | new => exact fun message member => by cases member
  | step reached step ih => exact ih.step step

end Cell

namespace Simulation.World

/-- **No wait gives a task up**, however it ends. -/
theorem awaitTask_goesOn {world after : World} {party : Party} {socket : Option SocketId}
    {since : Nat} {id : TaskId} {wait : Wait} {outcome : WaitOutcome}
    (reached : (world.cell id).Reached)
    (ended : world.awaitTask party socket since id wait = (.ready outcome, after)) :
    Task.cancels outcome.resume = false := by
  rw [awaitTask] at ended
  split at ended
  · cases ended
  rw [awaitTaskFreely] at ended
  split at ended
  · -- for a fixed time
    split at ended <;> cases ended
    rfl
  · -- until a resume
    split at ended
    · rename_i message cell taken
      cases ended
      refine reached.goesOn message ?_
      rw [Cell.take?_inbox taken]
      exact List.mem_cons_self
    · split at ended
      · split at ended <;> cases ended
        rfl
      · cases ended
  · -- until readiness
    split at ended
    · cases ended
      rfl
    · cases ended
      rfl
    · split at ended <;> cases ended
      rfl

end Simulation.World

end EmbeddedHttp
