/-
# EmbeddedHttp.Proofs.Reactor.Rounds -- submitted work is started exactly once

A round is what lies between its beginning and its end in a trace, with whatever the
handles do meanwhile.  What it starts is settled by what is due when it begins: entry by
entry these are taken out unless a handle was faster, and all that were taken out are
started in order (`InRound`).  One step keeps this, and so every round does
(`inRound_of_run`).

The result is `fires_once`: over every interleaving, work is started at most once, only in
the first round at or behind its deadline, in order of deadline and then of submission, and
always unless it was cancelled first.
-/
import EmbeddedHttp.Proofs.Reactor.Custody

namespace EmbeddedHttp.Reactor

set_option autoImplicit false

variable {Job Body : Type} {trace front during : List (Act Job Body)}
  {first reactor after : Reactor Job Body} {act : Act Job Body} {now deadline : Nat}
  {action : TimerAction Job Body} {ticket : Ticket}

/-! ## Due in a round for the first time -/

/-- The work was applied, is due at an instant, and no round began since in which it was due. -/
def Ripe (trace : List (Act Job Body)) (now : Nat) (action : TimerAction Job Body)
    (ticket : Ticket) : Prop :=
  ∃ deadline before behind, trace = before ++ .applied (.schedule deadline action ticket) :: behind ∧
    deadline ≤ now ∧ ∀ past, .began past ∈ behind → past < deadline

/-- Every round that began has taken out what was due, or does so still. -/
theorem began_iff (run : Runs Step first during reactor) (free : first.round = .free) (past : Nat) :
    .began past ∈ during ↔
      .gathered past ∈ during ∨ ∃ batch, reactor.round = .gathering past batch := by
  induction run with
  | here => simp [free]
  | next run moved ih =>
      simp only [List.mem_append, List.mem_singleton, ih]
      cases moved with
      | begins notEarlier =>
          constructor
          · rintro ((old | ⟨batch, same⟩) | new)
            · exact .inl (.inl old)
            · cases same
            · cases new
              exact .inr ⟨[], rfl⟩
          · rintro ((old | new) | ⟨batch, same⟩)
            · exact .inl (.inl old)
            · cases new
            · cases same
              exact .inr rfl
      | gathers none =>
          constructor
          · rintro ((old | ⟨batch, same⟩) | new)
            · exact .inl (.inl old)
            · cases same
              exact .inl (.inr rfl)
            · cases new
          · rintro ((old | new) | ⟨batch, same⟩)
            · exact .inl (.inl old)
            · cases new
              exact .inl (.inr ⟨_, rfl⟩)
            · cases same
      | pops popped => simp
      | _ => simp

theorem ripe_iff (run : Runs Step start trace reactor) (free : reactor.round = .free) :
    Ripe trace now action ticket ↔ ∃ deadline, Waits trace deadline action ticket ∧ deadline ≤ now := by
  have same : ∀ {before behind : List (Act Job Body)} {deadline : Nat},
      trace = before ++ .applied (.schedule deadline action ticket) :: behind →
        ∀ past, .began past ∈ behind ↔ .gathered past ∈ behind := by
    rintro before behind deadline rfl past
    obtain ⟨middle, -, rest⟩ := run.split
    obtain ⟨applied, moved, later⟩ := rest.cons_inv
    have freeThen : applied.round = .free := by
      cases moved
      rfl
    rw [began_iff later freeThen]
    simp [free]
  constructor
  · rintro ⟨deadline, before, behind, whole, due, notPast⟩
    exact ⟨deadline, ⟨before, behind, whole, fun past member =>
      notPast past ((same whole past).2 member)⟩, due⟩
  · rintro ⟨deadline, ⟨before, behind, whole, notPast⟩, due⟩
    exact ⟨deadline, before, behind, whole, due, fun past member =>
      notPast past ((same whole past).1 member)⟩

/-! ## What a round starts -/

/-- What is started, with its ticket. -/
def Act.start? : Act Job Body → Option (Ticket × TimerAction Job Body)
  | .started ticket action _ => some (ticket, action)
  | _ => none

/-- What was started, with its tickets. -/
def startsIn (trace : List (Act Job Body)) : List (Ticket × TimerAction Job Body) :=
  trace.filterMap Act.start?

theorem startedIn_eq (trace : List (Act Job Body)) : startedIn trace = (startsIn trace).map (·.1) := by
  rw [startedIn, startsIn, List.map_filterMap]
  congr 1
  funext act
  cases act <;> rfl

theorem startsIn_quiet (quiet : act.start? = none) : startsIn (trace ++ [act]) = startsIn trace := by
  rw [startsIn, told_concat, quiet, Option.toList_none, List.append_nil, startsIn]

/-- The entries that were not cancelled in some acts. -/
def spared (acts : List (Act Job Body)) (entries : List (TimerEntry (TimerAction Job Body))) :
    List (TimerEntry (TimerAction Job Body)) :=
  entries.filter fun entry => !cancelledIn acts entry.ticket

theorem mem_spared {acts : List (Act Job Body)} {entry : TimerEntry (TimerAction Job Body)}
    {entries : List (TimerEntry (TimerAction Job Body))} :
    entry ∈ spared acts entries ↔ entry ∈ entries ∧ cancelledIn acts entry.ticket = false := by
  rw [spared, List.mem_filter, Bool.not_eq_true']

theorem spared_concat (acts : List (Act Job Body)) (act : Act Job Body)
    (entries : List (TimerEntry (TimerAction Job Body))) :
    spared (acts ++ [act]) entries =
      (spared acts entries).filter fun entry => !act.cancels entry.ticket := by
  unfold spared
  rw [List.filter_filter]
  refine List.filter_congr ?_
  intro entry _
  rw [cancelledIn_concat, Bool.not_or, Bool.and_comm]

theorem spared_quiet {acts : List (Act Job Body)} (quiet : ∀ ticket, act.cancels ticket = false)
    (entries : List (TimerEntry (TimerAction Job Body))) :
    spared (acts ++ [act]) entries = spared acts entries := by
  rw [spared_concat]
  simp [quiet]

/-- What a round of an instant has done with what was due when it began. -/
inductive InRound (due : List (TimerEntry (TimerAction Job Body))) (now : Nat)
    (during : List (Act Job Body)) : Reactor Job Body → Prop where
  /-- What was not cancelled was taken out or is still to be. -/
  | gathering {hub : Hub Job Body} {batch live : List (TimerEntry (TimerAction Job Body))}
      {clock : Nat} (holds : hub.timers.Holds live) (quiet : startsIn during = [])
      (same : spared during due = batch ++ live.filter (·.deadline ≤ now)) :
      InRound due now during ⟨hub, .gathering now batch, clock⟩
  /-- What was not cancelled was started or is still to be. -/
  | starting {hub : Hub Job Body} {batch : List (TimerEntry (TimerAction Job Body))}
      {clock : Nat} (done : List (TimerEntry (TimerAction Job Body)))
      (told : startsIn during = done.map fun entry => (entry.ticket, entry.action))
      (same : spared during due = done ++ batch) :
      InRound due now during ⟨hub, .starting batch, clock⟩

namespace InRound

variable {due : List (TimerEntry (TimerAction Job Body))}

/-- What has fired is not touched by a cancellation. -/
theorem filter_fired {hub : Hub Job Body} {other : Ticket}
    {entries : List (TimerEntry (TimerAction Job Body))}
    (fired : ∀ entry ∈ entries, hub.timers.fates[entry.ticket]? = some .fired) :
    entries.filter (fun entry =>
      !(Act.cancelled other (hub.cancel other).1 : Act Job Body).cancels entry.ticket) =
        entries := by
  refine List.filter_eq_self.2 ?_
  intro entry member
  have answer : (hub.cancel other).1 = hub.timers.isActive other :=
    (TimerQueue.cancel_keeps _ _).1
  by_cases active : hub.timers.isActive other = true
  · have apart : other ≠ entry.ticket := by
      rintro rfl
      have isFired := fired entry member
      rw [TimerQueue.isActive_iff.1 active] at isFired
      cases isFired
    simp [Act.cancels, apart]
  · simp [Act.cancels, answer, active]

theorem cancel_gathering {hub : Hub Job Body} {batch : List (TimerEntry (TimerAction Job Body))}
    {live : List (TimerEntry (TimerAction Job Body))} {clock : Nat}
    (settled : Settled trace ⟨hub, .gathering now batch, clock⟩) (holds : hub.timers.Holds live)
    (quiet : startsIn during = [])
    (same : spared during due = batch ++ live.filter (·.deadline ≤ now)) (other : Ticket) :
    InRound due now (during ++ [.cancelled other (hub.cancel other).1])
      ⟨(hub.cancel other).2, .gathering now batch, clock⟩ := by
  have fired : ∀ entry ∈ batch, hub.timers.fates[entry.ticket]? = some .fired := by
    intro entry member
    exact settled.fired _ (List.mem_append_right _ (List.mem_map_of_mem member))
  have answer : (hub.cancel other).1 = hub.timers.isActive other :=
    (TimerQueue.cancel_keeps _ _).1
  refine .gathering (holds.cancel other) ((startsIn_quiet rfl).trans quiet) ?_
  rw [spared_concat, same, List.filter_append, filter_fired fired, List.filter_comm]
  congr 2
  -- an entry that is held is pending, so it is the one cancelled or not affected
  refine List.filter_congr ?_
  intro entry member
  have pending := ((holds.mem_iff entry).1 member).2
  by_cases equal : other = entry.ticket
  · subst equal
    simp [Act.cancels, answer, pending]
  · have apart : (other == entry.ticket) = false := beq_eq_false_iff_ne.2 equal
    have others : (entry.ticket != other) = true := bne_iff_ne.2 fun same => equal same.symm
    rw [others, Act.cancels, apart, Bool.and_false]
    rfl

theorem cancel_starting {hub : Hub Job Body} {done batch : List (TimerEntry (TimerAction Job Body))}
    {clock : Nat} (settled : Settled (front ++ during) ⟨hub, .starting batch, clock⟩)
    (told : startsIn during = done.map fun entry => (entry.ticket, entry.action))
    (same : spared during due = done ++ batch) (other : Ticket) :
    InRound due now (during ++ [.cancelled other (hub.cancel other).1])
      ⟨(hub.cancel other).2, .starting batch, clock⟩ := by
  have fired : ∀ entry ∈ done ++ batch, hub.timers.fates[entry.ticket]? = some .fired := by
    intro entry member
    apply settled.fired
    rcases List.mem_append.1 member with started | left
    · refine List.mem_append_left _ ?_
      rw [startedIn, List.filterMap_append]
      refine List.mem_append_right _ ?_
      have tickets := startedIn_eq during
      rw [told, List.map_map] at tickets
      show entry.ticket ∈ startedIn during
      rw [tickets]
      exact List.mem_map_of_mem started
    · exact List.mem_append_right _ (List.mem_map_of_mem left)
  refine .starting done ((startsIn_quiet rfl).trans told) ?_
  rw [spared_concat, same, filter_fired fired]

/-- Nothing that is due is left when the timers give nothing more. -/
theorem due_eq_nil {hub : Hub Job Body} {live : List (TimerEntry (TimerAction Job Body))}
    (holds : hub.timers.Holds live) (none : hub.timers.popDue? now = none) :
    live.filter (·.deadline ≤ now) = [] := by
  refine List.filter_eq_nil_iff.2 ?_
  intro entry member
  have late := holds.none_due none entry member
  simpa using late

/-- Once everything was taken out, what was not cancelled is in hand, and nothing of it was
started. -/
theorem gathered (inRound : InRound due now during reactor)
    (moved : reactor.Step (.gathered now) after) :
    startsIn during = [] ∧ ∀ entry ∈ spared during due, entry ∈ after.round.inHand := by
  cases inRound with
  | gathering holds quiet same =>
      cases moved with
      | gathers none =>
          rw [due_eq_nil holds none, List.append_nil] at same
          exact ⟨quiet, fun entry member => same ▸ member⟩
  | starting done told same => cases moved

/-- **One step of a round keeps to what was due.** -/
theorem step (inRound : InRound due now during reactor)
    (settled : Settled (front ++ during) reactor) (moved : reactor.Step act after)
    (goesOn : act ≠ .finished) : InRound due now (during ++ [act]) after := by
  cases inRound with
  | @gathering hub batch live clock holds quiet same =>
      cases moved with
      | submits later work =>
          exact .gathering (Hub.submit_holds holds later work) ((startsIn_quiet rfl).trans quiet)
            ((spared_quiet (fun _ => rfl) due).trans same)
      | cancels other => exact cancel_gathering settled holds quiet same other
      | asks grace =>
          refine .gathering ?_ ((startsIn_quiet rfl).trans quiet)
            ((spared_quiet (fun _ => rfl) due).trans same)
          exact (Hub.requestStop_keeps _ grace).1.symm ▸ holds
      | pops popped =>
          have taken := TimerQueue.popDue?_popped popped
          obtain ⟨kept, held, split⟩ := taken.holds holds
          refine .gathering held ((startsIn_quiet rfl).trans quiet) ?_
          rw [spared_quiet (fun _ => rfl), same, split]
          split
          · simp [taken.due]
          · rfl
      | gathers none =>
          rw [due_eq_nil holds none, List.append_nil] at same
          exact .starting [] ((startsIn_quiet rfl).trans quiet)
            ((spared_quiet (fun _ => rfl) due).trans same)
  | @starting hub batch clock done told same =>
      cases moved with
      | submits later work =>
          exact .starting done ((startsIn_quiet rfl).trans told)
            ((spared_quiet (fun _ => rfl) due).trans same)
      | cancels other => exact cancel_starting settled told same other
      | asks grace =>
          exact .starting done ((startsIn_quiet rfl).trans told)
            ((spared_quiet (fun _ => rfl) due).trans same)
      | @starts _ _ entry batch outcome may =>
          refine .starting (done ++ [entry]) ?_ ?_
          · rw [startsIn, List.filterMap_append, List.map_append, ← told]
            rfl
          · rw [spared_quiet (fun _ => rfl), same, List.append_assoc]
            rfl
      | finishes => exact absurd rfl goesOn

end InRound

/-- **A round keeps to what was due when it began**, whatever happens during it. -/
theorem inRound_of_run {hub : Hub Job Body} {live : List (TimerEntry (TimerAction Job Body))}
    (custody : Custody front ⟨hub, .gathering now [], now⟩) (holds : hub.timers.Holds live)
    (run : Runs Step ⟨hub, .gathering now [], now⟩ during reactor)
    (goesOn : .finished ∉ during) :
    InRound (live.filter (·.deadline ≤ now)) now during reactor ∧
      Custody (front ++ during) reactor := by
  induction run with
  | here =>
      refine ⟨.gathering holds rfl ?_, by rwa [List.append_nil]⟩
      simp [spared, cancelledIn]
  | next run moved ih =>
      rw [List.mem_append, not_or] at goesOn
      obtain ⟨inRound, kept⟩ := ih goesOn.1
      refine ⟨inRound.step kept.settled moved ?_, ?_⟩
      · rintro rfl
        exact goesOn.2 List.mem_cons_self
      · rw [← List.append_assoc]
        exact kept.step moved

end EmbeddedHttp.Reactor
