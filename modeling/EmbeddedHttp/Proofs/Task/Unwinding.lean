/-
# EmbeddedHttp.Proofs.Task.Unwinding -- a task that is given up comes to its end

Once a task is cancelled its suspension points fail at once, so its code runs to an end
(`run_cancelled`): the switch that gives a task up is told a final step, whatever the host
answers on the way.
-/
import EmbeddedHttp.Task.Basic

namespace EmbeddedHttp

set_option autoImplicit false

namespace Task

variable {Item Call : Type} {Answer : Call → Type} {σ : Type}

theorem run_cancelled (host : Host Call Answer σ) (program : Program Item Call Answer) (s : σ) :
    ∃ result, (Program.run host true program s).1 = .ended result := by
  induction program generalizing s with
  | finish result => exact ⟨result, rfl⟩
  | panic payload => exact ⟨_, rfl⟩
  | suspend timeout next ih | trampoline descriptor read write timeout next ih
  | sleep time next ih =>
      rw [Program.run]
      split
      · rw [if_pos rfl]
        exact ih _ _
      · exact ih _ _
  | emit item next ih =>
      rw [Program.run, if_pos rfl]
      exact ih _ _
  | call request next ih =>
      rw [Program.run]
      exact ih _ _

/-- A task that is given up comes to its end. -/
theorem switch_cancel {host : Host Call Answer σ} {task after : Task Item Call Answer}
    {before later : σ} {step : EmbeddedHttp.Step Item}
    (ran : task.switch host .cancel before = (step, after, later)) :
    step = .completed ∨ ∃ error, step = .failed error := by
  cases task with
  | finished =>
      cases ran
      exact .inr ⟨_, rfl⟩
  | fresh body =>
      have given : cancels .cancel = true := rfl
      rw [switch, if_pos given] at ran
      cases ran
      exact .inr ⟨_, rfl⟩
  | paused next =>
      obtain ⟨result, ended⟩ :=
        run_cancelled host (next (received .cancel)) (host.setState .running before)
      simp only [switch, cancels, ended, atStop, lastStep] at ran
      cases result with
      | ok done =>
          cases ran
          exact .inl rfl
      | error error =>
          cases ran
          exact .inr ⟨error, rfl⟩

/-- It is not run again. -/
theorem switch_cancel_finished (host : Host Call Answer σ) (task : Task Item Call Answer)
    (s : σ) : (task.switch host .cancel s).2.1 = .finished := by
  cases task with
  | finished => rfl
  | fresh body => rfl
  | paused next =>
      obtain ⟨result, ended⟩ :=
        run_cancelled host (next (received .cancel)) (host.setState .running s)
      simp only [switch, cancels, ended, atStop]

end Task

end EmbeddedHttp
