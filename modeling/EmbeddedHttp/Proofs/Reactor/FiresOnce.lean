/-
# EmbeddedHttp.Proofs.Reactor.FiresOnce -- submitted work is started exactly once

What was submitted to the hub is started at most once, and once for certain unless it was
cancelled first: in the first round at or behind its deadline since it was applied, in order
of deadline and then of submission.  `FiresOnce` says so of a trace, and `fires_once` proves
it of every interleaving of handles and reactor.  What was taken out to be started can no
longer be cancelled (`not_cancelled_of_popped`), so an action of a round that cancels another
one of it comes too late.  No outcome of an action and nothing that a handle does holds a
round up: from wherever a round stands it comes to its end.
-/
import EmbeddedHttp.Proofs.Reactor.Rounds

namespace EmbeddedHttp.Reactor

set_option autoImplicit false

variable {Job Body : Type} {trace front during : List (Act Job Body)}
  {reactor after : Reactor Job Body} {act : Act Job Body} {now : Nat}

/-! ## What each start comes from -/

/-- Is a round under way? -/
def Round.isUnderWay : Round Job Body → Bool
  | .gathering _ _ | .starting _ => true
  | _ => false

theorem began_of_underWay (run : Runs Step start trace reactor)
    (underWay : reactor.round.isUnderWay = true) :
    ∃ before now during, trace = before ++ .began now :: during ∧ .finished ∉ during := by
  induction run with
  | here => cases underWay
  | @next acts last after act run moved ih =>
      have goesOn : last.round.isUnderWay = true → act ≠ .finished →
          ∃ before now during, acts ++ [act] = before ++ .began now :: during ∧
            .finished ∉ during := by
        intro under other
        obtain ⟨before, now, during, rfl, notOver⟩ := ih under
        refine ⟨before, now, during ++ [act], by simp, ?_⟩
        rw [List.mem_append, not_or]
        exact ⟨notOver, fun same => other (List.mem_singleton.1 same).symm⟩
      cases moved with
      | begins notEarlier => exact ⟨acts, _, [], rfl, List.not_mem_nil⟩
      | submits => exact goesOn underWay (by simp)
      | cancels => exact goesOn underWay (by simp)
      | asks => exact goesOn underWay (by simp)
      | pops => exact goesOn rfl (by simp)
      | gathers => exact goesOn rfl (by simp)
      | starts => exact goesOn rfl (by simp)
      | _ => cases underWay

/-- A ticket has one submission. -/
theorem submitted_once {one other : Nat} {first second : TimerAction Job Body} {ticket : Ticket}
    (distinct : (submittedIn trace).Nodup) (isOne : .submitted ticket one first ∈ trace)
    (isOther : .submitted ticket other second ∈ trace) : one = other := by
  induction trace with
  | nil => cases isOne
  | cons act rest ih =>
      have further : ∀ {deadline : Nat} {action : TimerAction Job Body},
          Act.submitted ticket deadline action ∈ rest → ticket ∈ submittedIn rest :=
        fun member => List.mem_filterMap.2 ⟨_, member, rfl⟩
      rcases List.mem_cons.1 isOne with rfl | restOne
      · rcases List.mem_cons.1 isOther with same | restOther
        · cases same
          rfl
        · exact absurd (further restOther) (List.nodup_cons.1 distinct).1
      · rcases List.mem_cons.1 isOther with rfl | restOther
        · exact absurd (further restOne) (List.nodup_cons.1 distinct).1
        · refine ih ?_ restOne restOther
          refine distinct.sublist (List.Sublist.filterMap _ (List.sublist_cons_self act rest))

/-- A submission is applied as it was sent. -/
theorem sent_of_applied {deadline : Nat} {action : TimerAction Job Body} {ticket : Ticket}
    {back : List (Act Job Body)} (run : Runs Step start trace reactor)
    (whole : trace = front ++ .applied (.schedule deadline action ticket) :: back) :
    .submitted ticket deadline action ∈ front := by
  subst whole
  obtain ⟨middle, before, rest⟩ := run.split
  obtain ⟨later, moved, -⟩ := rest.cons_inv
  have numbered := (custody_of_run before).numbered
  cases moved with
  | applies received =>
      refine numbered.sent deadline action ticket ?_
      rw [(Hub.receive?_eq received).1]
      exact List.mem_cons_self

/-! ## What a trace shows -/

/-- Whatever these tickets were submitted for, the first is due before the second, or at the
same instant and was submitted first. -/
def InTurn (trace : List (Act Job Body)) (one other : Ticket) : Prop :=
  ∀ (first second : Nat) (work further : TimerAction Job Body),
    .submitted one first work ∈ trace → .submitted other second further ∈ trace →
      first < second ∨ first = second ∧ one < other

/-- Work that is submitted is started exactly once in a trace.  A round is what lies behind
the act with which it begins, as long as it does not finish. -/
structure FiresOnce (trace : List (Act Job Body)) : Prop where
  /-- Tickets count the submissions, and these are applied in order and as they were sent. -/
  numbered : submittedIn trace = List.range (submittedIn trace).length
  applied : appliedIn trace <+: submittedIn trace
  sent : ∀ front deadline action ticket back,
    trace = front ++ .applied (.schedule deadline action ticket) :: back →
      .submitted ticket deadline action ∈ front
  /-- Nothing is started twice, and nothing that was cancelled in time is. -/
  once : (startedIn trace).Nodup
  cancelled : ∀ ticket, .cancelled ticket true ∈ trace → ticket ∉ startedIn trace
  /-- Work is started in rounds only, -/
  inRound : ∀ front ticket action outcome back,
    trace = front ++ .started ticket action outcome :: back →
      ∃ before now during, front = before ++ .began now :: during ∧ .finished ∉ during
  /-- and only in the first round in which it is due, -/
  ripe : ∀ before now during after, trace = before ++ .began now :: (during ++ after) →
    .finished ∉ during → ∀ ticket action outcome, .started ticket action outcome ∈ during →
      Ripe before now action ticket
  /-- in order of deadline and then of submission; -/
  inTurn : ∀ before now during after, trace = before ++ .began now :: (during ++ after) →
    .finished ∉ during → (startedIn during).Pairwise (InTurn trace)
  /-- and a round that finishes has started everything of this kind that was not cancelled by
  the time it had taken out what was due.  So nothing done while it starts these, be it done
  by one of them, keeps it from starting another. -/
  all : ∀ before now during after,
    trace = before ++ .began now :: (during ++ .finished :: after) → .finished ∉ during →
      ∃ taking starting, during = taking ++ .gathered now :: starting ∧
        ∀ ticket action, Ripe before now action ticket →
          .cancelled ticket true ∉ before ++ taking →
            ∃ outcome, .started ticket action outcome ∈ starting
  /-- What was taken out to be started is not cancelled in time, whether before or behind. -/
  tooLate : ∀ ticket, .popped ticket true ∈ trace → .cancelled ticket true ∉ trace

/-- What is known of a round of a run: where it began, and what it has done. -/
theorem round_of_run {before later : List (Act Job Body)}
    (run : Runs Step start (before ++ .began now :: (during ++ later)) reactor)
    (goesOn : .finished ∉ during) :
    ∃ (here middle : Reactor Job Body) (live : List (TimerEntry (TimerAction Job Body))),
      Runs Step start before here ∧ here.round = .free ∧ here.hub.timers.Holds live ∧
        Custody before here ∧ Runs Step here (.began now :: during) middle ∧
          InRound (live.filter (·.deadline ≤ now)) now during middle ∧
            Runs Step middle later reactor := by
  obtain ⟨here, atStart, rest⟩ := run.split
  obtain ⟨begun, moved, further⟩ := rest.cons_inv
  obtain ⟨middle, inside, behind⟩ := further.split
  have custody := custody_of_run atStart
  obtain ⟨live, holds⟩ := custody.stored.holds
  cases moved with
  | begins notEarlier =>
      have began := custody.step (.begins notEarlier)
      exact ⟨_, middle, live, atStart, rfl, holds, custody, .cons (.begins notEarlier) inside,
        (inRound_of_run began holds inside goesOn).1, behind⟩

/-- What is held when a round begins is ripe in it as far as it is due. -/
theorem ripe_of_due {here : Reactor Job Body} {live : List (TimerEntry (TimerAction Job Body))}
    (run : Runs Step start front here) (free : here.round = .free)
    (holds : here.hub.timers.Holds live) (action : TimerAction Job Body) (ticket : Ticket) :
    (∃ entry ∈ live.filter (·.deadline ≤ now), entry.ticket = ticket ∧ entry.action = action) ↔
      Ripe front now action ticket ∧ cancelledIn front ticket = false := by
  have kept := (custody_of_run run).kept
  have none_gathered : here.round.gathered = [] := by rw [free]; rfl
  rw [ripe_iff run free]
  constructor
  · rintro ⟨entry, member, rfl, rfl⟩
    obtain ⟨inLive, due⟩ := List.mem_filter.1 member
    have held : here.Held entry := (held_iff holds entry).2 (.inl inLive)
    obtain ⟨waits, quiet⟩ := (kept entry.deadline entry.action entry.ticket).1
      ⟨entry, held, rfl, rfl, rfl⟩
    exact ⟨⟨entry.deadline, waits, of_decide_eq_true due⟩, quiet⟩
  · rintro ⟨⟨deadline, waits, due⟩, quiet⟩
    obtain ⟨entry, held, rfl, rfl, rfl⟩ := (kept deadline action ticket).2 ⟨waits, quiet⟩
    rcases (held_iff holds entry).1 held with inLive | inBatch
    · exact ⟨entry, List.mem_filter.2 ⟨inLive, decide_eq_true due⟩, rfl, rfl⟩
    · rw [none_gathered] at inBatch
      cases inBatch

namespace InRound

variable {due : List (TimerEntry (TimerAction Job Body))}

/-- What was started so far is a front of what was due and not cancelled. -/
theorem done (inRound : InRound due now during reactor) :
    ∃ done left, startsIn during = done.map (fun entry => (entry.ticket, entry.action)) ∧
      spared during due = done ++ left ∧ (reactor.round = .starting [] → left = []) := by
  cases inRound with
  | gathering holds quiet same => exact ⟨[], _, quiet, same, fun spent => by cases spent⟩
  | starting done told same =>
      refine ⟨done, _, told, same, ?_⟩
      intro spent
      cases spent
      rfl

end InRound

theorem mem_startsIn {ticket : Ticket} {action : TimerAction Job Body} :
    (ticket, action) ∈ startsIn trace ↔ ∃ outcome, .started ticket action outcome ∈ trace := by
  rw [startsIn, List.mem_filterMap]
  constructor
  · rintro ⟨act, member, same⟩
    cases act with
    | started other work outcome =>
        cases same
        exact ⟨outcome, member⟩
    | _ => cases same
  · rintro ⟨outcome, member⟩
    exact ⟨_, member, rfl⟩

section

variable {before later : List (Act Job Body)}
  (run : Runs Step start (before ++ .began now :: (during ++ later)) reactor)
  (goesOn : .finished ∉ during)

include run goesOn

theorem ripe_of_started {ticket : Ticket} {action : TimerAction Job Body} {outcome : Outcome}
    (started : .started ticket action outcome ∈ during) : Ripe before now action ticket := by
  obtain ⟨here, middle, live, atStart, free, holds, -, -, inRound, -⟩ :=
    round_of_run run goesOn
  obtain ⟨done, left, told, same, -⟩ := inRound.done
  have member := mem_startsIn.2 ⟨outcome, started⟩
  rw [told] at member
  obtain ⟨entry, isDone, equal⟩ := List.mem_map.1 member
  cases equal
  have isDue : entry ∈ spared during (live.filter (·.deadline ≤ now)) := by
    rw [same]
    exact List.mem_append_left _ isDone
  exact ((ripe_of_due atStart free holds entry.action entry.ticket).1
    ⟨entry, (mem_spared.1 isDue).1, rfl, rfl⟩).1

theorem started_inTurn :
    (startedIn during).Pairwise (InTurn (before ++ .began now :: (during ++ later))) := by
  obtain ⟨here, middle, live, atStart, free, holds, custody, -, inRound, -⟩ :=
    round_of_run run goesOn
  obtain ⟨done, left, told, same, -⟩ := inRound.done
  have inDue : done.Sublist (live.filter (·.deadline ≤ now)) :=
    (same ▸ List.sublist_append_left done left).trans List.filter_sublist
  have inOrder := (holds.inOrder.filter (·.deadline ≤ now)).sublist inDue
  rw [startedIn_eq, told, List.map_map, List.pairwise_map]
  refine inOrder.imp_of_mem ?_
  intro one other isOne isOther sooner first second work further sentFirst sentSecond
  have distinct := (custody_of_run run).numbered.submitted ▸ List.nodup_range
  have known : ∀ entry ∈ done, entry ∈ here.hub.timers.heap.toList ∧
      .submitted entry.ticket entry.deadline entry.action ∈
        before ++ .began now :: (during ++ later) := by
    intro entry member
    have inHeap := ((holds.mem_iff entry).1 (List.mem_filter.1 (inDue.subset member)).1).1
    obtain ⟨front, back, whole⟩ := List.append_of_mem (custody.stored.applied entry inHeap)
    refine ⟨inHeap, List.mem_append_left _ ?_⟩
    rw [whole]
    exact List.mem_append_left _ (sent_of_applied atStart whole)
  obtain ⟨heapOne, knownOne⟩ := known one isOne
  obtain ⟨heapOther, knownOther⟩ := known other isOther
  rw [submitted_once distinct sentFirst knownOne, submitted_once distinct sentSecond knownOther]
  rcases sooner with before | ⟨sameInstant, earlier⟩
  · exact .inl before
  · exact .inr ⟨sameInstant, custody.stored.inTurn one heapOne other heapOther earlier⟩

end

theorem started_of_ripe {before later : List (Act Job Body)} {ticket : Ticket}
    {action : TimerAction Job Body}
    (run : Runs Step start (before ++ .began now :: (during ++ .finished :: later)) reactor)
    (goesOn : .finished ∉ during) (ripe : Ripe before now action ticket)
    (quiet : .cancelled ticket true ∉ before ++ during) :
    ∃ outcome, .started ticket action outcome ∈ during := by
  obtain ⟨here, middle, live, atStart, free, holds, -, -, inRound, rest⟩ :=
    round_of_run run goesOn
  obtain ⟨done, left, told, same, spent⟩ := inRound.done
  rw [List.mem_append, not_or, ← cancelledIn_iff, ← cancelledIn_iff, Bool.not_eq_true,
    Bool.not_eq_true] at quiet
  obtain ⟨entry, isDue, rfl, rfl⟩ :=
    (ripe_of_due atStart free holds action ticket).2 ⟨ripe, quiet.1⟩
  have isSpared : entry ∈ spared during (live.filter (·.deadline ≤ now)) :=
    mem_spared.2 ⟨isDue, quiet.2⟩
  obtain ⟨ended, moved, -⟩ := rest.cons_inv
  have atEnd : middle.round = .starting [] := by
    cases moved
    rfl
  rw [same, spent atEnd, List.append_nil] at isSpared
  rw [← mem_startsIn, told]
  exact List.mem_map_of_mem isSpared

/-! ## What was taken out -/

/-- What is in hand stays there until it is started. -/
theorem started_or_inHand {ticket : Ticket} (run : Runs Step reactor trace after)
    (inHand : ticket ∈ reactor.round.inHand.map (·.ticket)) :
    ticket ∈ startedIn trace ++ after.round.inHand.map (·.ticket) := by
  induction run with
  | here => exact List.mem_append_right _ inHand
  | @next acts middle after act run moved ih =>
      have stays : act.started? = none →
          (∀ entry ∈ middle.round.inHand, entry ∈ after.round.inHand) →
          ticket ∈ startedIn (acts ++ [act]) ++ after.round.inHand.map (·.ticket) := by
        intro quiet kept
        rw [startedIn, told_concat, quiet, Option.toList_none, List.append_nil]
        rcases List.mem_append.1 ih with before | held
        · exact List.mem_append_left _ before
        · exact List.mem_append_right _ (List.map_subset _ kept held)
      cases moved with
      | @pops _ _ _ _ _ fires =>
          refine stays rfl ?_
          intro entry member
          cases fires
          · exact member
          · exact List.mem_append_left _ member
      | @starts hub clock entry batch outcome may =>
          rw [startedIn, List.filterMap_append, List.append_assoc]
          simpa [startedIn, Act.started?] using ih
      | _ => exact stays rfl fun _ member => member

/-- What is in hand at some moment of a run is never cancelled in time. -/
theorem not_cancelled_of_inHand {ticket : Ticket} {middle : Reactor Job Body}
    (before : Runs Step start front middle) (rest : Runs Step middle during reactor)
    (inHand : ticket ∈ middle.round.inHand.map (·.ticket)) :
    .cancelled ticket true ∉ front ++ during := by
  have settled := (custody_of_run (before.append rest)).settled
  intro was
  have fired := settled.fired ticket ?_
  · rw [settled.cancelled ticket (cancelledIn_iff.2 was)] at fired
    cases fired
  · rw [startedIn, List.filterMap_append, List.append_assoc]
    exact List.mem_append_right _ (started_or_inHand rest inHand)

theorem not_cancelled_of_popped {ticket : Ticket} (run : Runs Step start trace reactor)
    (popped : .popped ticket true ∈ trace) : .cancelled ticket true ∉ trace := by
  obtain ⟨front, back, rfl⟩ := List.append_of_mem popped
  obtain ⟨middle, before, rest⟩ := run.split
  obtain ⟨taken, moved, later⟩ := rest.cons_inv
  have inHand : ticket ∈ taken.round.inHand.map (·.ticket) := by
    cases moved
    simp
  have whole := not_cancelled_of_inHand (before.next moved) later inHand
  rwa [List.append_assoc] at whole

/-- **What was not cancelled by the time a round had taken out what was due is started in
it.** -/
theorem started_of_gathered {before later : List (Act Job Body)}
    (run : Runs Step start (before ++ .began now :: (during ++ .finished :: later)) reactor)
    (goesOn : .finished ∉ during) :
    ∃ taking starting, during = taking ++ .gathered now :: starting ∧
      ∀ ticket action, Ripe before now action ticket → .cancelled ticket true ∉ before ++ taking →
        ∃ outcome, .started ticket action outcome ∈ starting := by
  have wasGathered : .gathered now ∈ during := by
    obtain ⟨here, middle, -, -, free, -, -, round, -, rest⟩ := round_of_run run goesOn
    obtain ⟨ended, moved, -⟩ := rest.cons_inv
    rcases (began_iff round free now).1 List.mem_cons_self with told | ⟨batch, still⟩
    · exact (List.mem_cons.1 told).resolve_left (by simp)
    · cases moved
      cases still
  obtain ⟨taking, starting, rfl⟩ := List.append_of_mem wasGathered
  refine ⟨taking, starting, rfl, ?_⟩
  intro ticket action ripe quiet
  have untilThen := run
  rw [List.append_assoc, List.cons_append] at untilThen
  obtain ⟨here, filled, live, atStart, free, holds, -, round, inRound, rest⟩ :=
    round_of_run untilThen fun member => goesOn (List.mem_append_left _ member)
  obtain ⟨gathered, moved, later⟩ := rest.cons_inv
  obtain ⟨noneStarted, inHand⟩ := inRound.gathered moved
  rw [List.mem_append, not_or, ← cancelledIn_iff, ← cancelledIn_iff, Bool.not_eq_true,
    Bool.not_eq_true] at quiet
  obtain ⟨entry, isDue, rfl, rfl⟩ :=
    (ripe_of_due atStart free holds action ticket).2 ⟨ripe, quiet.1⟩
  -- it is in hand, so it is not cancelled any more, and the round starts it
  have isInHand : entry.ticket ∈ gathered.round.inHand.map (·.ticket) :=
    List.mem_map_of_mem (inHand entry (mem_spared.2 ⟨isDue, quiet.2⟩))
  have never := not_cancelled_of_inHand ((atStart.append round).next moved) later isInHand
  obtain ⟨outcome, started⟩ := started_of_ripe run goesOn ripe fun was => never <| by
    simp only [List.mem_append, List.mem_cons] at was ⊢
    tauto
  refine ⟨outcome, ?_⟩
  rcases List.mem_append.1 started with early | late
  · have isStart := mem_startsIn.2 ⟨outcome, early⟩
    rw [noneStarted] at isStart
    cases isStart
  · exact (List.mem_cons.1 late).resolve_left (by simp)

/-- From wherever a round stands the reactor alone brings it to its end, whatever comes of
what it starts. -/
def Ends (reactor : Reactor Job Body) (turnsOut : TimerAction Job Body → Outcome) : Prop :=
  ∃ acts after, Runs Step reactor acts after ∧ after.round = .free ∧
    ∀ act ∈ acts, act.ofRound = true ∧
      ∀ ticket action outcome, act = .started ticket action outcome → outcome = turnsOut action

theorem round_ends (turnsOut : TimerAction Job Body → Outcome)
    (may : ∀ action : TimerAction Job Body, action.MayTurnOut (turnsOut action))
    (underWay : reactor.round.isUnderWay = true) : reactor.Ends turnsOut := by
  obtain ⟨hub, round, clock⟩ := reactor
  cases round with
  | free => cases underWay
  | gone => cases underWay
  | starting batch =>
      exact ⟨_, _, runs_starting turnsOut may hub clock batch, rfl, fun _ => mem_starting⟩
  | gathering now batch =>
      obtain ⟨acts, fired, run, -, ofRound, quiet, -⟩ := runs_gathering hub now clock batch
      refine ⟨_, _, run.append (runs_starting turnsOut may _ clock (batch ++ fired)), rfl, ?_⟩
      intro act member
      rcases List.mem_append.1 member with inFront | atEnd
      · refine ⟨ofRound act inFront, ?_⟩
        rintro ticket action outcome rfl
        have told : action ∈ acts.filterMap Act.action? := List.mem_filterMap.2 ⟨_, inFront, rfl⟩
        rw [quiet] at told
        cases told
      · exact mem_starting atEnd

/-- **Submitted work fires exactly once**, over every interleaving of handles that submit and
cancel with the reactor that applies and fires.  What was submitted was applied or is in the
channel as long as it is open, and a round under way comes to its end by itself, whatever
comes of what it starts. -/
theorem fires_once (run : Runs Step start trace reactor) :
    FiresOnce trace ∧
      (reactor.hub.isOpen = true → submittedIn trace = appliedIn trace ++ reactor.underWay) ∧
      ∀ turnsOut : TimerAction Job Body → Outcome,
        (∀ action : TimerAction Job Body, action.MayTurnOut (turnsOut action)) →
          reactor.round.isUnderWay = true → reactor.Ends turnsOut := by
  have custody := custody_of_run run
  have numbered := custody.numbered
  have settled := custody.settled
  have count : (submittedIn trace).length = reactor.drawn := by
    rw [numbered.submitted, List.length_range]
  refine ⟨⟨?_, ?_, ?_, ?_, ?_, ?_, ?_, ?_, ?_, ?_⟩, ?_, ?_⟩
  · rw [count]
    exact numbered.submitted
  · rw [numbered.submitted]
    exact (List.prefix_append _ _).trans numbered.queued
  · intro front deadline action ticket back whole
    exact sent_of_applied run whole
  · exact settled.once.of_append_left
  · intro ticket was started
    have fired := settled.fired ticket (List.mem_append_left _ started)
    rw [settled.cancelled ticket (cancelledIn_iff.2 was)] at fired
    cases fired
  · rintro front ticket action outcome back rfl
    obtain ⟨middle, atStart, rest⟩ := run.split
    obtain ⟨later, moved, -⟩ := rest.cons_inv
    refine began_of_underWay atStart ?_
    cases moved
    rfl
  · rintro before now during after rfl goesOn ticket action outcome started
    exact ripe_of_started run goesOn started
  · rintro before now during after rfl goesOn
    exact started_inTurn run goesOn
  · rintro before now during after rfl goesOn
    exact started_of_gathered run goesOn
  · intro ticket popped
    exact not_cancelled_of_popped run popped
  · intro isOpen
    rw [numbered.submitted, numbered.unlost isOpen]
  · intro turnsOut may underWay
    exact round_ends turnsOut may underWay

/-- Calls are submitted out of order, one of them is cancelled on its way, and the others
panic. -/
theorem disordered_fires_once :
    ∃ (trace : List (Act String Unit)) (reactor : Reactor String Unit),
      Runs Step start trace reactor ∧ FiresOnce trace ∧
        trace.filterMap Act.action? = [.call "first", .call "second"] := by
  have nothing : Runs Step (start : Reactor String Unit) [] start := .here
  have submitted := ((nothing.next (.submits 5 (.call "late"))).next
    (.submits 3 (.call "second"))).next (.submits 2 (.call "first"))
  have applied := (((submitted.next (.cancels 0)).next (.applies rfl)).next
    (.applies rfl)).next (.applies rfl)
  obtain ⟨round, fired, -, actions⟩ :=
    runs_round TimerAction.mishap TimerAction.mishap_may _ 0 (Nat.zero_le 7)
  have run := applied.append fired
  refine ⟨_, _, run, (fires_once run).1, ?_⟩
  rw [List.filterMap_append, List.filterMap_cons_none rfl, actions]
  with_unfolding_all rfl

end EmbeddedHttp.Reactor
