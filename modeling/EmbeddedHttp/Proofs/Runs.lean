/-
# EmbeddedHttp.Proofs.Runs -- the runs of a step relation

A step leads from one state to another and is told by an act.  A run is any number of
steps, told by the list of their acts, oldest first.
-/
import Mathlib.Data.List.Induction

namespace EmbeddedHttp

set_option autoImplicit false

variable {State Act : Type} {step : State → Act → State → Prop}
  {first middle last after : State} {acts earlier later : List Act} {act : Act}

/-- What is read off the acts, with one more act. -/
theorem told_concat {α : Type} (told : Act → Option α) (acts : List Act) (act : Act) :
    (acts ++ [act]).filterMap told = acts.filterMap told ++ (told act).toList := by
  cases last : told act <;> simp [last]

/-- Any number of steps. -/
inductive Runs (step : State → Act → State → Prop) (first : State) : List Act → State → Prop where
  | here : Runs step first [] first
  | next {acts : List Act} {last after : State} {act : Act} (run : Runs step first acts last)
      (moved : step last act after) : Runs step first (acts ++ [act]) after

namespace Runs

theorem single (moved : step first act last) : Runs step first [act] last :=
  .next .here moved

theorem append (front : Runs step first earlier middle) (back : Runs step middle later last) :
    Runs step first (earlier ++ later) last := by
  induction back with
  | here => simpa using front
  | next run moved ih =>
      rw [← List.append_assoc]
      exact .next ih moved

theorem cons (moved : step first act middle) (run : Runs step middle acts last) :
    Runs step first (act :: acts) last :=
  (single moved).append run

/-- The last step of a run. -/
theorem concat_inv (run : Runs step first (acts ++ [act]) after) :
    ∃ last, Runs step first acts last ∧ step last act after := by
  generalize whole : acts ++ [act] = all at run
  cases run with
  | here => simp at whole
  | next run moved =>
      obtain ⟨rfl, same⟩ := List.append_inj' whole rfl
      cases same
      exact ⟨_, run, moved⟩

/-- A run goes through a state at every point of its acts. -/
theorem split (run : Runs step first (earlier ++ later) last) :
    ∃ middle, Runs step first earlier middle ∧ Runs step middle later last := by
  induction later using List.reverseRecOn generalizing last with
  | nil =>
      rw [List.append_nil] at run
      exact ⟨last, run, .here⟩
  | append_singleton front act ih =>
      rw [← List.append_assoc] at run
      obtain ⟨before, rest, moved⟩ := run.concat_inv
      obtain ⟨middle, one, two⟩ := ih rest
      exact ⟨middle, one, two.next moved⟩

theorem cons_inv (run : Runs step first (act :: acts) last) :
    ∃ middle, step first act middle ∧ Runs step middle acts last := by
  rw [← List.singleton_append] at run
  obtain ⟨middle, one, rest⟩ := run.split
  rw [← List.nil_append [act]] at one
  obtain ⟨start, nothing, moved⟩ := one.concat_inv
  generalize empty : ([] : List Act) = none at nothing
  cases nothing with
  | here => exact ⟨middle, moved, rest⟩
  | next run step => simp at empty

end Runs

end EmbeddedHttp
