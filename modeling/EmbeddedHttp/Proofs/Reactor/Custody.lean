/-
# EmbeddedHttp.Proofs.Reactor.Custody -- what the reactor still has to start

Work is to come when it was applied, was not cancelled, and was not due in any round since
(`ToCome`): that is read off the trace alone.  The reactor has it in custody when its entry
is pending among the timers, or was taken out by a round that still takes out more (`Held`).
At every moment of every run the two agree (`Runs.custody`), because each step changes both
in the same way (`toCome_concat`, `Step.holding`).
-/
import EmbeddedHttp.Proofs.Reactor.Tickets

namespace EmbeddedHttp.Reactor

set_option autoImplicit false

variable {Job Body : Type} {trace : List (Act Job Body)} {reactor after : Reactor Job Body}
  {act : Act Job Body} {deadline : Nat} {action : TimerAction Job Body} {ticket : Ticket}

/-! ## What is to come -/

/-- The work was applied, and no round has taken out what was due by then since. -/
def Waits (trace : List (Act Job Body)) (deadline : Nat) (action : TimerAction Job Body)
    (ticket : Ticket) : Prop :=
  ∃ before behind, trace = before ++ .applied (.schedule deadline action ticket) :: behind ∧
    ∀ past, .gathered past ∈ behind → past < deadline

/-- The work waits and was not cancelled. -/
def ToCome (trace : List (Act Job Body)) (deadline : Nat) (action : TimerAction Job Body)
    (ticket : Ticket) : Prop :=
  Waits trace deadline action ticket ∧ cancelledIn trace ticket = false

/-- Does this leave work with a deadline and a ticket to come? -/
def Act.Spares (act : Act Job Body) (deadline : Nat) (ticket : Ticket) : Prop :=
  act.cancels ticket = false ∧ ∀ past, act = .gathered past → past < deadline

theorem waits_concat :
    Waits (trace ++ [act]) deadline action ticket ↔
      Waits trace deadline action ticket ∧ (∀ past, act = .gathered past → past < deadline) ∨
        act = .applied (.schedule deadline action ticket) := by
  constructor
  · rintro ⟨before, behind, whole, notPast⟩
    rcases List.eq_nil_or_concat behind with rfl | ⟨behind, last, rfl⟩
    · exact .inr (List.singleton_inj.1 (List.append_inj' whole rfl).2)
    · rw [List.concat_eq_append, ← List.cons_append, ← List.append_assoc] at whole
      obtain ⟨rfl, same⟩ := List.append_inj' whole rfl
      cases same
      refine .inl ⟨⟨before, behind, rfl, ?_⟩, ?_⟩
      · intro past member
        apply notPast past
        simp [member]
      · rintro past rfl
        apply notPast past
        simp
  · rintro (⟨⟨before, behind, rfl, notPast⟩, last⟩ | rfl)
    · refine ⟨before, behind ++ [act], by simp, ?_⟩
      intro past member
      rcases List.mem_append.1 member with inside | atEnd
      · exact notPast past inside
      · exact last past (List.mem_singleton.1 atEnd).symm
    · exact ⟨trace, [], rfl, by simp⟩

/-- **What an act changes about what is to come.** -/
theorem toCome_concat :
    ToCome (trace ++ [act]) deadline action ticket ↔
      ToCome trace deadline action ticket ∧ act.Spares deadline ticket ∨
        act = .applied (.schedule deadline action ticket) ∧ cancelledIn trace ticket = false := by
  unfold ToCome Act.Spares
  rw [waits_concat, cancelledIn_concat, Bool.or_eq_false_iff]
  constructor
  · rintro ⟨⟨waits, later⟩ | rfl, quiet, notNow⟩
    · exact .inl ⟨⟨waits, quiet⟩, notNow, later⟩
    · exact .inr ⟨rfl, quiet⟩
  · rintro (⟨⟨waits, quiet⟩, notNow, later⟩ | ⟨rfl, quiet⟩)
    · exact ⟨.inl ⟨waits, later⟩, quiet, notNow⟩
    · exact ⟨.inr rfl, quiet, rfl⟩

/-! ## What is in custody -/

/-- The entry is pending among the timers, or was taken out while more may still be. -/
def Held (reactor : Reactor Job Body) (entry : TimerEntry (TimerAction Job Body)) : Prop :=
  entry ∈ reactor.hub.timers.heap.toList ∧ reactor.hub.timers.isActive entry.ticket = true ∨
    entry ∈ reactor.round.gathered

/-- Some entry for the work is held. -/
def Holding (reactor : Reactor Job Body) (deadline : Nat) (action : TimerAction Job Body)
    (ticket : Ticket) : Prop :=
  ∃ entry, reactor.Held entry ∧ entry.deadline = deadline ∧ entry.action = action ∧
    entry.ticket = ticket

theorem held_iff {live : List (TimerEntry (TimerAction Job Body))}
    (holds : reactor.hub.timers.Holds live) (entry : TimerEntry (TimerAction Job Body)) :
    reactor.Held entry ↔ entry ∈ live ∨ entry ∈ reactor.round.gathered := by
  rw [Held, holds.mem_iff]

/-- What was taken out in a round was due at its instant. -/
def Timely (reactor : Reactor Job Body) : Prop :=
  ∀ now batch, reactor.round = .gathering now batch → ∀ entry ∈ batch, entry.deadline ≤ now

theorem Timely.step (timely : reactor.Timely) (moved : reactor.Step act after) :
    after.Timely := by
  cases moved with
  | @pops hub clock now batch entry fires timers popped =>
      intro instant others same member inBatch
      cases same
      split at inBatch
      · rcases List.mem_append.1 inBatch with before | last
        · exact timely now batch rfl member before
        · rw [List.mem_singleton.1 last]
          exact (TimerQueue.popDue?_popped popped).due
      · exact timely now batch rfl member inBatch
  | begins =>
      intro instant others same
      cases same
      exact fun _ member => absurd member List.not_mem_nil
  | submits deadline action => exact timely
  | cancels ticket => exact timely
  | asks grace => exact timely
  | _ =>
      intro instant others same
      cases same

/-- Where what is known of the tickets is put together. -/
structure Custody (trace : List (Act Job Body)) (reactor : Reactor Job Body) : Prop where
  numbered : Numbered trace reactor
  stored : Stored trace reactor
  settled : Settled trace reactor
  timely : reactor.Timely
  kept : ∀ deadline action ticket,
    reactor.Holding deadline action ticket ↔ ToCome trace deadline action ticket

namespace Custody

/-- A step after which the same entries are held. -/
theorem holding_same (same : ∀ entry, after.Held entry ↔ reactor.Held entry)
    (spares : act.Spares deadline ticket)
    (notApplied : act = .applied (.schedule deadline action ticket) →
      cancelledIn trace ticket = true) :
    after.Holding deadline action ticket ↔
      reactor.Holding deadline action ticket ∧ act.Spares deadline ticket ∨
        act = .applied (.schedule deadline action ticket) ∧
          cancelledIn trace ticket = false := by
  have holding : after.Holding deadline action ticket ↔ reactor.Holding deadline action ticket :=
    exists_congr fun entry => and_congr_left' (same entry)
  rw [holding]
  constructor
  · exact fun held => .inl ⟨held, spares⟩
  · rintro (⟨held, -⟩ | ⟨isApplied, quiet⟩)
    · exact held
    · rw [notApplied isApplied] at quiet
      cases quiet

/-- A step that may rule some entries out, and adds none. -/
theorem holding_spared (spared : ∀ entry, after.Held entry ↔
      reactor.Held entry ∧ act.Spares entry.deadline entry.ticket)
    (notApplied : act ≠ .applied (.schedule deadline action ticket)) :
    after.Holding deadline action ticket ↔
      reactor.Holding deadline action ticket ∧ act.Spares deadline ticket ∨
        act = .applied (.schedule deadline action ticket) ∧
          cancelledIn trace ticket = false := by
  constructor
  · rintro ⟨entry, held, rfl, rfl, rfl⟩
    obtain ⟨before, spares⟩ := (spared entry).1 held
    exact .inl ⟨⟨entry, before, rfl, rfl, rfl⟩, spares⟩
  · rintro (⟨⟨entry, held, rfl, rfl, rfl⟩, spares⟩ | ⟨isApplied, -⟩)
    · exact ⟨entry, (spared entry).2 ⟨held, spares⟩, rfl, rfl, rfl⟩
    · exact absurd isApplied notApplied

theorem holding_submit {hub : Hub Job Body} {round : Round Job Body} {clock : Nat}
    (custody : Custody trace ⟨hub, round, clock⟩) (later : Nat) (work : TimerAction Job Body)
    (entry : TimerEntry (TimerAction Job Body)) :
    Held ⟨(hub.submit later work).2, round, clock⟩ entry ↔ Held ⟨hub, round, clock⟩ entry := by
  obtain ⟨live, holds⟩ := custody.stored.holds
  rw [held_iff holds, held_iff (Hub.submit_holds holds later work)]

/-- A cancelled entry is no longer held; what was taken out can no longer be cancelled. -/
theorem holding_cancel {hub : Hub Job Body} {round : Round Job Body} {clock : Nat}
    (custody : Custody trace ⟨hub, round, clock⟩) (other : Ticket)
    (entry : TimerEntry (TimerAction Job Body)) :
    Held ⟨(hub.cancel other).2, round, clock⟩ entry ↔ Held ⟨hub, round, clock⟩ entry ∧
      (Act.cancelled other (hub.cancel other).1 : Act Job Body).Spares entry.deadline
        entry.ticket := by
  obtain ⟨live, holds⟩ := custody.stored.holds
  have answer : (hub.cancel other).1 = hub.timers.isActive other :=
    (TimerQueue.cancel_keeps _ _).1
  have spares : (Act.cancelled other (hub.cancel other).1 : Act Job Body).Spares
      entry.deadline entry.ticket ↔
        (hub.timers.isActive other = true → other ≠ entry.ticket) := by
    simp [Act.Spares, Act.cancels, answer]
  rw [held_iff holds, held_iff (holds.cancel other), List.mem_filter, spares]
  constructor
  · rintro (⟨inLive, apart⟩ | inBatch)
    · exact ⟨.inl inLive, fun _ same => by simp [same] at apart⟩
    · refine ⟨.inr inBatch, ?_⟩
      rintro active rfl
      have fired := custody.settled.fired entry.ticket
        (List.mem_append_right _ (List.mem_map_of_mem (round.gathered_subset inBatch)))
      rw [TimerQueue.isActive_iff.1 active] at fired
      cases fired
  · rintro ⟨inLive | inBatch, apart⟩
    · refine .inl ⟨inLive, ?_⟩
      rw [bne_iff_ne]
      intro same
      exact apart (same ▸ ((holds.mem_iff entry).1 inLive).2) same.symm
    · exact .inr inBatch

theorem holding_apply {hub later : Hub Job Body} {clock : Nat} {command : HubCommand Job Body}
    (custody : Custody trace ⟨hub, .free, clock⟩)
    (received : hub.receive? = some (command, later)) :
    Holding ⟨(later.apply command).2, .free, clock⟩ deadline action ticket ↔
      Holding ⟨hub, .free, clock⟩ deadline action ticket ∧
          Act.Spares (.applied command) deadline ticket ∨
        Act.applied command = .applied (.schedule deadline action ticket) ∧
          cancelledIn trace ticket = false := by
  obtain ⟨channel, timers, -⟩ := Hub.receive?_eq received
  have spares : Act.Spares (.applied command) deadline ticket := ⟨rfl, by simp⟩
  have same : ∀ entry, Held ⟨later, .free, clock⟩ entry ↔ Held ⟨hub, .free, clock⟩ entry := by
    intro entry
    simp only [Held, timers]
  cases command with
  | stop grace => exact holding_same same spares (by simp)
  | schedule due work drawn =>
      have inChannel : drawn ∈ underWay (⟨hub, .free, clock⟩ : Reactor Job Body) := by
        rw [underWay, channel]
        exact List.mem_cons_self
      by_cases active : later.timers.isActive drawn = true
      · rw [Hub.apply_pending active]
        have quiet : cancelledIn trace drawn = false := by
          rw [Bool.eq_false_iff]
          intro was
          have cancelled := custody.settled.cancelled drawn was
          rw [timers, TimerQueue.isActive_iff, cancelled] at active
          cases active
        have entries : (later.timers.schedule due work drawn).heap.toList.Perm
            (⟨due, later.timers.nextSeq, drawn, work⟩ :: later.timers.heap.toList) :=
          Heap.toList_push _ _ _
        have held : ∀ entry, Held
            ⟨{ later with timers := later.timers.schedule due work drawn }, .free, clock⟩ entry ↔
              Held ⟨hub, .free, clock⟩ entry ∨
                entry = ⟨due, later.timers.nextSeq, drawn, work⟩ := by
          intro entry
          rw [← same entry]
          simp only [Held, Round.gathered, List.not_mem_nil, or_false]
          rw [entries.mem_iff, List.mem_cons]
          constructor
          · rintro ⟨rfl | inHeap, pending⟩
            · exact .inr rfl
            · exact .inl ⟨inHeap, pending⟩
          · rintro (⟨inHeap, pending⟩ | rfl)
            · exact ⟨.inr inHeap, pending⟩
            · exact ⟨.inl rfl, active⟩
        constructor
        · rintro ⟨entry, isHeld, rfl, rfl, rfl⟩
          rcases (held entry).1 isHeld with old | rfl
          · exact .inl ⟨⟨entry, old, rfl, rfl, rfl⟩, spares⟩
          · exact .inr ⟨rfl, quiet⟩
        · rintro (⟨⟨entry, old, rfl, rfl, rfl⟩, -⟩ | ⟨isApplied, -⟩)
          · exact ⟨entry, (held entry).2 (.inl old), rfl, rfl, rfl⟩
          · cases isApplied
            exact ⟨_, (held _).2 (.inr rfl), rfl, rfl, rfl⟩
      · rw [Hub.apply_past active]
        refine holding_same same spares ?_
        intro isApplied
        cases isApplied
        refine (custody.settled.underWay _ inChannel).resolve_left ?_
        intro pending
        exact active (TimerQueue.isActive_iff.2 (timers ▸ pending))

/-- **A step changes what is in custody as its act changes what is to come.** -/
theorem holding (custody : Custody trace reactor) (moved : reactor.Step act after) :
    after.Holding deadline action ticket ↔
      reactor.Holding deadline action ticket ∧ act.Spares deadline ticket ∨
        act = .applied (.schedule deadline action ticket) ∧
          cancelledIn trace ticket = false := by
  obtain ⟨live, holds⟩ := custody.stored.holds
  cases moved with
  | submits later work =>
      exact holding_same (custody.holding_submit later work) ⟨rfl, by simp⟩ (by simp)
  | cancels other => exact holding_spared (custody.holding_cancel other) (by simp)
  | asks grace =>
      refine holding_same ?_ ⟨rfl, by simp⟩ (by simp)
      intro entry
      simp only [Held, (Hub.requestStop_keeps _ grace).1]
  | applies received => exact custody.holding_apply received
  | looks =>
      refine holding_same ?_ ⟨rfl, by simp⟩ (by simp)
      intro entry
      rw [held_iff holds, held_iff holds.nextDeadline.2]
  | @pops hub clock now batch top fires timers popped =>
      refine holding_same ?_ ⟨rfl, by simp⟩ (by simp)
      intro entry
      obtain ⟨kept, held, split⟩ := (TimerQueue.popDue?_popped popped).holds holds
      rw [held_iff holds, held_iff held, split]
      -- a pending entry goes from the front of the timers to the end of the batch
      cases fires
      · exact Iff.rfl
      · simp only [Round.gathered, if_true, List.mem_append, List.mem_cons, List.not_mem_nil,
          or_false]
        tauto
  | @gathers hub clock now batch none =>
      refine holding_spared ?_ (by simp)
      intro entry
      have before := held_iff holds entry
      have behind := @held_iff _ _ ⟨hub, .starting batch, clock⟩ live holds entry
      rw [before, behind]
      constructor
      · rintro (inLive | inBatch)
        · refine ⟨.inl inLive, rfl, ?_⟩
          rintro past ⟨⟩
          exact holds.none_due none entry inLive
        · cases inBatch
      · rintro ⟨inLive | inBatch, -, later⟩
        · exact .inl inLive
        · have due := custody.timely now batch rfl entry inBatch
          exact absurd (later now rfl) due.not_gt
  | begins => exact holding_same (fun _ => Iff.rfl) ⟨rfl, by simp⟩ (by simp)
  | starts may => exact holding_same (fun _ => Iff.rfl) ⟨rfl, by simp⟩ (by simp)
  | finishes => exact holding_same (fun _ => Iff.rfl) ⟨rfl, by simp⟩ (by simp)
  | closes => exact holding_same (fun _ => Iff.rfl) ⟨rfl, by simp⟩ (by simp)

/-- **One step keeps custody.** -/
theorem step (custody : Custody trace reactor) (moved : reactor.Step act after) :
    Custody (trace ++ [act]) after where
  numbered := custody.numbered.step moved
  stored := custody.stored.step custody.numbered moved
  settled := custody.settled.step custody.numbered custody.stored moved
  timely := custody.timely.step moved
  kept deadline action ticket := by
    rw [custody.holding moved, toCome_concat, custody.kept]

theorem start : Custody ([] : List (Act Job Body)) Reactor.start where
  numbered := ⟨rfl, List.prefix_refl _, fun _ => rfl, by simp [Reactor.start, Hub.empty]⟩
  stored := ⟨⟨[], TimerQueue.Holds.empty⟩, by simp [Reactor.start, Hub.empty, TimerQueue.empty,
    Heap.toList], by simp [Reactor.start, Hub.empty, TimerQueue.empty, Heap.toList]⟩
  settled := ⟨by simp [startedIn, Reactor.start], by simp [startedIn, Reactor.start],
    by simp [cancelledIn], by simp [underWay, Reactor.start, Hub.empty]⟩
  timely := by
    intro now batch same
    cases same
  kept := by
    intro deadline action ticket
    constructor
    · rintro ⟨entry, ⟨inHeap, -⟩ | inBatch, -⟩
      · cases inHeap
      · cases inBatch
    · rintro ⟨⟨before, behind, whole, -⟩, -⟩
      simp at whole

end Custody

/-- **At every moment of every run the reactor holds exactly what is to come.** -/
theorem custody_of_run (run : Runs Step start trace reactor) : Custody trace reactor := by
  induction run with
  | here => exact .start
  | next run moved ih => exact ih.step moved

end EmbeddedHttp.Reactor
