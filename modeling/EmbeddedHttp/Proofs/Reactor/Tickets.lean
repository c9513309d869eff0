/-
# EmbeddedHttp.Proofs.Reactor.Tickets -- what becomes of a ticket

Submitted work passes through three hands: it waits in the channel, lies among the timers,
and is taken out by a round.  Three things are said of every moment of a run, each with
what one step keeps of it.  Tickets are given out and applied in order, and none is lost on
the way (`Numbered`).  The timers hold what was applied, in the order in which it was
submitted (`Stored`).  What was taken out or started can no longer be cancelled, and what
was cancelled stays so (`Settled`).
-/
import EmbeddedHttp.Proofs.Reactor.Dispatch

namespace EmbeddedHttp

set_option autoImplicit false

variable {Job Body : Type}

/-! ## What one operation of a hub changes -/

theorem TimerQueue.cancel_other {α : Type} (queue : TimerQueue α) {ticket other : Ticket}
    (apart : other ≠ ticket) : (queue.cancel ticket).2.fates[other]? = queue.fates[other]? := by
  unfold cancel
  split
  · exact List.getElem?_set_ne fun same => apart same.symm
  · rfl

namespace Hub

variable {hub later : Hub Job Body}

theorem submit_heap (hub : Hub Job Body) (deadline : Nat) (action : TimerAction Job Body) :
    (hub.submit deadline action).2.timers.heap = hub.timers.heap := by
  unfold submit
  split
  · rfl
  · exact (TimerQueue.cancel_keeps _ _).2.1

theorem submit_drawn (hub : Hub Job Body) (deadline : Nat) (action : TimerAction Job Body) :
    (hub.submit deadline action).2.timers.fates.length = hub.timers.fates.length + 1 := by
  unfold submit
  split
  · simp [TimerQueue.draw]
  · simp [(TimerQueue.cancel_keeps _ _).2.2.2, TimerQueue.draw]

/-- A submission changes the fate of no ticket that was given out before. -/
theorem submit_fate (hub : Hub Job Body) (deadline : Nat) (action : TimerAction Job Body)
    {ticket : Ticket} (drawn : ticket < hub.timers.fates.length) :
    (hub.submit deadline action).2.timers.fates[ticket]? = hub.timers.fates[ticket]? := by
  have old : hub.timers.draw.2.fates[ticket]? = hub.timers.fates[ticket]? :=
    List.getElem?_append_left drawn
  unfold submit
  split
  · exact old
  · exact (TimerQueue.cancel_other _ drawn.ne).trans old

theorem submit_ticket (hub : Hub Job Body) (deadline : Nat) (action : TimerAction Job Body) :
    (hub.submit deadline action).1 = hub.timers.fates.length := by
  unfold submit
  split <;> rfl

/-- A submission joins the channel as long as it is open, and its ticket is pending then. -/
theorem submit_open (isOpen : hub.isOpen = true) (deadline : Nat)
    (action : TimerAction Job Body) :
    (hub.submit deadline action).2.channel =
        hub.channel ++ [.schedule deadline action hub.timers.fates.length] ∧
      (hub.submit deadline action).2.isOpen = true ∧
      (hub.submit deadline action).2.timers.fates = hub.timers.fates ++ [.pending] := by
  unfold submit
  rw [if_pos isOpen]
  exact ⟨rfl, isOpen, rfl⟩

theorem submit_closed (closed : ¬ hub.isOpen = true) (deadline : Nat)
    (action : TimerAction Job Body) :
    (hub.submit deadline action).2.channel = hub.channel ∧
      ¬ (hub.submit deadline action).2.isOpen = true := by
  unfold submit
  rw [if_neg closed]
  exact ⟨rfl, closed⟩

theorem submit_holds {live : List (TimerEntry (TimerAction Job Body))}
    (holds : hub.timers.Holds live) (deadline : Nat) (action : TimerAction Job Body) :
    (hub.submit deadline action).2.timers.Holds live := by
  unfold submit
  split
  · exact holds.draw
  · have others : live.filter (·.ticket != hub.timers.draw.1) = live := by
      refine List.filter_eq_self.2 ?_
      intro entry member
      rw [bne_iff_ne]
      exact (holds.drawn entry ((holds.mem_iff entry).1 member).1).ne
    have cancelled := holds.draw.cancel hub.timers.draw.1
    rw [others] at cancelled
    exact cancelled

/-- A request to stop leaves the timers alone, and brings no ticket to the channel. -/
theorem requestStop_keeps (hub : Hub Job Body) (grace : Option Nat) :
    (hub.requestStop grace).timers = hub.timers ∧
      (hub.requestStop grace).isOpen = hub.isOpen ∧
      (hub.requestStop grace).channel.filterMap HubCommand.ticket? =
        hub.channel.filterMap HubCommand.ticket? ∧
      ∀ deadline action ticket,
        .schedule deadline action ticket ∈ (hub.requestStop grace).channel →
          .schedule deadline action ticket ∈ hub.channel := by
  unfold requestStop
  split
  · refine ⟨rfl, rfl, by simp [HubCommand.ticket?], ?_⟩
    intro deadline action ticket member
    exact (List.mem_append.1 member).resolve_right (by simp)
  · exact ⟨rfl, rfl, rfl, fun _ _ _ member => member⟩

theorem receive?_eq {command : HubCommand Job Body}
    (received : hub.receive? = some (command, later)) :
    hub.channel = command :: later.channel ∧ later.timers = hub.timers ∧
      later.isOpen = hub.isOpen := by
  unfold receive? at received
  split at received
  · cases received
  · rename_i shape
    cases received
    exact ⟨shape, rfl, rfl⟩

/-- Applying a submission leaves the channel and the fates as they are. -/
theorem apply_keeps (hub : Hub Job Body) (command : HubCommand Job Body) :
    (hub.apply command).2.channel = hub.channel ∧ (hub.apply command).2.isOpen = hub.isOpen ∧
      (hub.apply command).2.timers.fates = hub.timers.fates := by
  unfold apply
  split
  · split <;> exact ⟨rfl, rfl, rfl⟩
  · exact ⟨rfl, rfl, rfl⟩

/-- A submission that is pending when it is applied goes to the timers. -/
theorem apply_pending {deadline : Nat} {action : TimerAction Job Body} {ticket : Ticket}
    (active : hub.timers.isActive ticket = true) :
    (hub.apply (.schedule deadline action ticket)).2 =
      { hub with timers := hub.timers.schedule deadline action ticket } := by
  simp only [apply, if_pos active]

/-- A submission that was cancelled on its way is forgotten. -/
theorem apply_past {deadline : Nat} {action : TimerAction Job Body} {ticket : Ticket}
    (past : ¬ hub.timers.isActive ticket = true) :
    (hub.apply (.schedule deadline action ticket)).2 = hub := by
  simp only [apply, if_neg past]

end Hub

namespace Reactor

variable {trace : List (Act Job Body)} {reactor after : Reactor Job Body} {act : Act Job Body}

theorem submittedIn_concat (trace : List (Act Job Body)) (act : Act Job Body) :
    submittedIn (trace ++ [act]) = submittedIn trace ++ act.submitted?.toList :=
  told_concat Act.submitted? trace act

theorem appliedIn_concat (trace : List (Act Job Body)) (act : Act Job Body) :
    appliedIn (trace ++ [act]) = appliedIn trace ++ act.applied?.toList :=
  told_concat Act.applied? trace act

theorem startedIn_concat (trace : List (Act Job Body)) (act : Act Job Body) :
    startedIn (trace ++ [act]) = startedIn trace ++ act.started?.toList :=
  told_concat Act.started? trace act

theorem cancelledIn_concat (trace : List (Act Job Body)) (act : Act Job Body)
    (ticket : Ticket) :
    cancelledIn (trace ++ [act]) ticket = (cancelledIn trace ticket || act.cancels ticket) := by
  simp [cancelledIn]

theorem submittedIn_quiet (quiet : act.submitted? = none) :
    submittedIn (trace ++ [act]) = submittedIn trace := by
  rw [submittedIn_concat, quiet, Option.toList_none, List.append_nil]

theorem appliedIn_quiet (quiet : act.applied? = none) :
    appliedIn (trace ++ [act]) = appliedIn trace := by
  rw [appliedIn_concat, quiet, Option.toList_none, List.append_nil]

theorem startedIn_quiet (quiet : act.started? = none) :
    startedIn (trace ++ [act]) = startedIn trace := by
  rw [startedIn_concat, quiet, Option.toList_none, List.append_nil]

theorem cancelledIn_quiet (quiet : ∀ ticket, act.cancels ticket = false) (ticket : Ticket) :
    cancelledIn (trace ++ [act]) ticket = cancelledIn trace ticket := by
  rw [cancelledIn_concat, quiet, Bool.or_false]

/-! ## Tickets in order -/

/-- The tickets in the channel, oldest first. -/
def underWay (reactor : Reactor Job Body) : List Ticket :=
  reactor.hub.channel.filterMap HubCommand.ticket?

/-- How many tickets were given out. -/
def drawn (reactor : Reactor Job Body) : Nat := reactor.hub.timers.fates.length

/-- Tickets are given out in order, and what was submitted is applied in that order. -/
structure Numbered (trace : List (Act Job Body)) (reactor : Reactor Job Body) : Prop where
  submitted : submittedIn trace = List.range reactor.drawn
  queued : appliedIn trace ++ reactor.underWay <+: List.range reactor.drawn
  unlost : reactor.hub.isOpen = true →
    appliedIn trace ++ reactor.underWay = List.range reactor.drawn
  sent : ∀ deadline action ticket, .schedule deadline action ticket ∈ reactor.hub.channel →
    .submitted ticket deadline action ∈ trace

namespace Numbered

/-- A step that neither submits nor applies anything. -/
theorem frame (numbered : Numbered trace reactor)
    (channel : after.hub.channel = reactor.hub.channel)
    (isOpen : after.hub.isOpen = reactor.hub.isOpen) (drawn : after.drawn = reactor.drawn)
    (noTicket : act.submitted? = none) (notApplied : act.applied? = none) :
    Numbered (trace ++ [act]) after := by
  have underWay : after.underWay = reactor.underWay := by unfold Reactor.underWay; rw [channel]
  refine ⟨?_, ?_, ?_, ?_⟩
  · rw [submittedIn_quiet noTicket, drawn]
    exact numbered.submitted
  · rw [appliedIn_quiet notApplied, drawn, underWay]
    exact numbered.queued
  · rw [appliedIn_quiet notApplied, drawn, underWay, isOpen]
    exact numbered.unlost
  · intro deadline action ticket member
    rw [channel] at member
    exact List.mem_append_left _ (numbered.sent deadline action ticket member)

/-- A ticket that waits in the channel was given out, and everything applied came before. -/
theorem lt_of_queued (numbered : Numbered trace reactor) {ticket : Ticket} {rest : List Ticket}
    (first : reactor.underWay = ticket :: rest) :
    ticket < reactor.drawn ∧ ∀ other ∈ appliedIn trace, other < ticket := by
  have queued := numbered.queued
  rw [first] at queued
  constructor
  · apply List.mem_range.1
    exact queued.subset (List.mem_append_right _ List.mem_cons_self)
  · intro other member
    have inOrder := List.pairwise_lt_range.sublist queued.sublist
    exact (List.pairwise_append.1 inOrder).2.2 other member ticket List.mem_cons_self

theorem notMem_underWay (numbered : Numbered trace reactor) {ticket : Ticket}
    (applied : ticket ∈ appliedIn trace) : ticket ∉ reactor.underWay := by
  intro queued
  have inOrder := List.pairwise_lt_range.sublist numbered.queued.sublist
  exact Nat.lt_irrefl _ ((List.pairwise_append.1 inOrder).2.2 ticket applied ticket queued)

theorem submit {hub : Hub Job Body} {round : Round Job Body} {clock : Nat}
    (numbered : Numbered trace ⟨hub, round, clock⟩) (deadline : Nat)
    (action : TimerAction Job Body) :
    Numbered (trace ++ [.submitted (hub.submit deadline action).1 deadline action])
      ⟨(hub.submit deadline action).2, round, clock⟩ := by
  obtain ⟨given, queued, unlost, sent⟩ := numbered
  simp only [drawn, underWay] at given queued unlost sent
  have grown : List.range hub.timers.fates.length <+: List.range (hub.timers.fates.length + 1) := by
    rw [List.range_succ]
    exact List.prefix_append _ _
  have more : submittedIn (trace ++ [.submitted (hub.submit deadline action).1 deadline action]) =
      List.range (drawn ⟨(hub.submit deadline action).2, round, clock⟩) := by
    rw [submittedIn_concat, given, drawn, Hub.submit_drawn, List.range_succ, Hub.submit_ticket]
    rfl
  by_cases isOpen : hub.isOpen = true
  · obtain ⟨channel, -, -⟩ := hub.submit_open isOpen deadline action
    have joined : appliedIn trace ++ (hub.channel ++
        [HubCommand.schedule deadline action hub.timers.fates.length]).filterMap
          HubCommand.ticket? = List.range (hub.timers.fates.length + 1) := by
      rw [List.filterMap_append, ← List.append_assoc, unlost isOpen, List.range_succ]
      rfl
    have whole : appliedIn (trace ++ [.submitted (hub.submit deadline action).1 deadline action]) ++
        underWay ⟨(hub.submit deadline action).2, round, clock⟩ =
          List.range (drawn ⟨(hub.submit deadline action).2, round, clock⟩) := by
      rw [appliedIn_quiet rfl, underWay, channel, drawn, Hub.submit_drawn, joined]
    refine ⟨?_, ?_, ?_, ?_⟩
    · exact more
    · exact ⟨[], (List.append_nil _).trans whole⟩
    · exact fun _ => whole
    · intro later work ticket member
      rw [channel] at member
      rcases List.mem_append.1 member with before | last
      · exact List.mem_append_left _ (sent later work ticket before)
      · cases List.mem_singleton.1 last
        rw [hub.submit_ticket]
        exact List.mem_append_right _ List.mem_cons_self
  · obtain ⟨channel, stillClosed⟩ := hub.submit_closed isOpen deadline action
    refine ⟨?_, ?_, ?_, ?_⟩
    · exact more
    · rw [appliedIn_quiet rfl, underWay, channel, drawn, Hub.submit_drawn]
      exact queued.trans grown
    · exact fun nowOpen => absurd nowOpen stillClosed
    · intro later work ticket member
      rw [channel] at member
      exact List.mem_append_left _ (sent later work ticket member)

theorem ask {hub : Hub Job Body} {round : Round Job Body} {clock : Nat}
    (numbered : Numbered trace ⟨hub, round, clock⟩) (grace : Option Nat) :
    Numbered (trace ++ [.asked grace]) ⟨hub.requestStop grace, round, clock⟩ := by
  obtain ⟨given, queued, unlost, sent⟩ := numbered
  obtain ⟨timers, isOpen, tickets, further⟩ := hub.requestStop_keeps grace
  refine ⟨?_, ?_, ?_, ?_⟩
  · rw [submittedIn_quiet rfl, drawn, timers]
    exact given
  · rw [appliedIn_quiet rfl, underWay, tickets, drawn, timers]
    exact queued
  · rw [appliedIn_quiet rfl, underWay, tickets, drawn, timers, isOpen]
    exact unlost
  · intro deadline action ticket member
    exact List.mem_append_left _ (sent deadline action ticket (further _ _ _ member))

theorem apply {hub later : Hub Job Body} {clock : Nat} {command : HubCommand Job Body}
    (numbered : Numbered trace ⟨hub, .free, clock⟩)
    (received : hub.receive? = some (command, later)) :
    Numbered (trace ++ [.applied command]) ⟨(later.apply command).2, .free, clock⟩ := by
  obtain ⟨given, queued, unlost, sent⟩ := numbered
  obtain ⟨channel, timers, isOpen⟩ := Hub.receive?_eq received
  obtain ⟨sameChannel, sameOpen, sameFates⟩ := later.apply_keeps command
  simp only [drawn, underWay] at given queued unlost sent
  -- the ticket moves from the front of the channel to the end of what was applied
  have moved : appliedIn (trace ++ [.applied command]) ++ later.channel.filterMap HubCommand.ticket? =
      appliedIn trace ++ hub.channel.filterMap HubCommand.ticket? := by
    rw [appliedIn_concat, channel, List.append_assoc]
    cases command <;> rfl
  refine ⟨?_, ?_, ?_, ?_⟩
  · rw [submittedIn_quiet rfl, drawn, sameFates, timers]
    exact given
  · simp only [drawn, underWay, sameChannel, moved, sameFates, timers]
    exact queued
  · simp only [drawn, underWay, sameChannel, moved, sameFates, timers, sameOpen, isOpen]
    exact unlost
  · intro deadline action ticket member
    simp only [sameChannel] at member
    refine List.mem_append_left _ (sent deadline action ticket ?_)
    rw [channel]
    exact List.mem_cons_of_mem _ member

theorem close {hub : Hub Job Body} {clock : Nat} (numbered : Numbered trace ⟨hub, .free, clock⟩) :
    Numbered (trace ++ [.closed]) ⟨hub.close, .gone, clock⟩ := by
  refine ⟨?_, ?_, ?_, ?_⟩
  · rw [submittedIn_quiet rfl]
    exact numbered.submitted
  · rw [appliedIn_quiet rfl, underWay, Hub.close, List.filterMap_nil, List.append_nil]
    exact (List.prefix_append _ _).trans numbered.queued
  · intro isOpen
    cases isOpen
  · intro deadline action ticket member
    cases member

/-- **One step keeps the tickets in order.** -/
theorem step (numbered : Numbered trace reactor) (moved : reactor.Step act after) :
    Numbered (trace ++ [act]) after := by
  cases moved with
  | submits deadline action => exact numbered.submit deadline action
  | cancels ticket =>
      exact numbered.frame rfl rfl (TimerQueue.cancel_keeps _ _).2.2.2 rfl rfl
  | asks grace => exact numbered.ask grace
  | applies received => exact numbered.apply received
  | pops popped =>
      exact numbered.frame rfl rfl (TimerQueue.popDue?_popped popped).fates_length rfl rfl
  | closes => exact numbered.close
  | _ => exact numbered.frame rfl rfl rfl rfl rfl

end Numbered

/-! ## What the timers hold -/

/-- The timers hold what was applied, first submitted first. -/
structure Stored (trace : List (Act Job Body)) (reactor : Reactor Job Body) : Prop where
  holds : ∃ live, reactor.hub.timers.Holds live
  applied : ∀ entry ∈ reactor.hub.timers.heap.toList,
    .applied (.schedule entry.deadline entry.action entry.ticket) ∈ trace
  inTurn : ∀ one ∈ reactor.hub.timers.heap.toList, ∀ other ∈ reactor.hub.timers.heap.toList,
    one.seq < other.seq → one.ticket < other.ticket

namespace Stored

theorem mem_appliedIn (stored : Stored trace reactor) {entry : TimerEntry (TimerAction Job Body)}
    (member : entry ∈ reactor.hub.timers.heap.toList) : entry.ticket ∈ appliedIn trace :=
  List.mem_filterMap.2 ⟨_, stored.applied entry member, rfl⟩

/-- A step that adds nothing to the heap. -/
theorem frame (stored : Stored trace reactor) (holds : ∃ live, after.hub.timers.Holds live)
    (subset : ∀ entry ∈ after.hub.timers.heap.toList, entry ∈ reactor.hub.timers.heap.toList) :
    Stored (trace ++ [act]) after := by
  refine ⟨holds, ?_, ?_⟩
  · intro entry member
    exact List.mem_append_left _ (stored.applied entry (subset entry member))
  · intro one first other second
    exact stored.inTurn one (subset one first) other (subset other second)

theorem schedule {hub later : Hub Job Body} {clock deadline : Nat}
    {action : TimerAction Job Body} {ticket : Ticket}
    (stored : Stored trace ⟨hub, .free, clock⟩) (numbered : Numbered trace ⟨hub, .free, clock⟩)
    (received : hub.receive? = some (.schedule deadline action ticket, later)) :
    Stored (trace ++ [.applied (.schedule deadline action ticket)])
      ⟨{ later with timers := later.timers.schedule deadline action ticket }, .free, clock⟩ := by
  obtain ⟨channel, timers, -⟩ := Hub.receive?_eq received
  have first : (⟨hub, .free, clock⟩ : Reactor Job Body).underWay =
      ticket :: later.channel.filterMap HubCommand.ticket? := by
    rw [underWay, channel]
    rfl
  obtain ⟨drawn, earlier⟩ := numbered.lt_of_queued first
  obtain ⟨live, holds⟩ := stored.holds
  have below : ∀ entry ∈ hub.timers.heap.toList, entry.ticket < ticket := by
    intro entry member
    exact earlier entry.ticket (stored.mem_appliedIn member)
  have entries : (hub.timers.schedule deadline action ticket).heap.toList.Perm
      (⟨deadline, hub.timers.nextSeq, ticket, action⟩ :: hub.timers.heap.toList) :=
    Heap.toList_push _ _ _
  refine ⟨?_, ?_, ?_⟩
  · refine ⟨_, timers ▸ holds.schedule deadline action drawn ?_⟩
    intro inHeap
    obtain ⟨entry, member, same⟩ := List.mem_map.1 inHeap
    exact (below entry member).ne same
  · intro entry member
    rw [timers] at member
    rcases List.mem_cons.1 (entries.subset member) with rfl | old
    · exact List.mem_append_right _ List.mem_cons_self
    · exact List.mem_append_left _ (stored.applied entry old)
  · intro one first other second
    rw [timers] at first second
    rcases List.mem_cons.1 (entries.subset first) with rfl | oldFirst
    · rcases List.mem_cons.1 (entries.subset second) with rfl | oldSecond
      · exact fun less => absurd less (Nat.lt_irrefl _)
      · exact fun less => absurd less (holds.earlier other oldSecond).not_gt
    · rcases List.mem_cons.1 (entries.subset second) with rfl | oldSecond
      · exact fun _ => below one oldFirst
      · exact stored.inTurn one oldFirst other oldSecond

/-- **One step keeps what the timers hold in order.** -/
theorem step (stored : Stored trace reactor) (numbered : Numbered trace reactor)
    (moved : reactor.Step act after) : Stored (trace ++ [act]) after := by
  obtain ⟨live, holds⟩ := stored.holds
  cases moved with
  | submits deadline action =>
      refine stored.frame ⟨live, Hub.submit_holds holds deadline action⟩ ?_
      intro entry member
      simpa [Hub.submit_heap] using member
  | cancels ticket =>
      refine stored.frame ⟨_, holds.cancel ticket⟩ ?_
      intro entry member
      rwa [Hub.cancel, (TimerQueue.cancel_keeps _ _).2.1] at member
  | asks grace =>
      refine stored.frame ⟨live, (Hub.requestStop_keeps _ grace).1.symm ▸ holds⟩ ?_
      intro entry member
      rwa [(Hub.requestStop_keeps _ grace).1] at member
  | @applies hub later clock command received =>
      obtain ⟨-, timers, -⟩ := Hub.receive?_eq received
      have frame : Stored (trace ++ [.applied command]) ⟨later, .free, clock⟩ := by
        refine stored.frame ⟨live, timers.symm ▸ holds⟩ ?_
        intro entry member
        rwa [timers] at member
      unfold Hub.apply
      split
      · split
        · exact stored.schedule numbered received
        · exact frame
      · exact frame
  | looks =>
      refine stored.frame ⟨live, holds.nextDeadline.2⟩ ?_
      intro entry member
      rename_i hub clock
      have drains := Heap.drainWhile_drains
        (fun entry => !hub.timers.isActive entry.ticket) holds.ordered
      exact drains.all.subset (List.mem_append_right _ member)
  | pops popped =>
      have gone := TimerQueue.popDue?_popped popped
      obtain ⟨kept, held, -⟩ := gone.holds holds
      exact stored.frame ⟨kept, held⟩ fun entry member => gone.subset member
  | _ => exact stored.frame ⟨live, holds⟩ fun entry member => member

end Stored

/-! ## What can no longer change -/

/-- What was taken out or started has fired, what was cancelled stays so, and what is in the
channel is pending unless it was cancelled. -/
structure Settled (trace : List (Act Job Body)) (reactor : Reactor Job Body) : Prop where
  fired : ∀ ticket ∈ startedIn trace ++ reactor.round.inHand.map (·.ticket),
    reactor.hub.timers.fates[ticket]? = some .fired
  once : (startedIn trace ++ reactor.round.inHand.map (·.ticket)).Nodup
  cancelled : ∀ ticket, cancelledIn trace ticket = true →
    reactor.hub.timers.fates[ticket]? = some .cancelled
  underWay : ∀ ticket ∈ reactor.underWay,
    reactor.hub.timers.fates[ticket]? = some .pending ∨ cancelledIn trace ticket = true

namespace Settled

theorem lt_of_known {fate : Fate} {ticket : Ticket} {fates : List Fate}
    (known : fates[ticket]? = some fate) : ticket < fates.length :=
  (List.getElem?_eq_some_iff.1 known).1

/-- A step that leaves the fates alone, and neither starts nor takes out anything. -/
theorem frame (settled : Settled trace reactor)
    (fates : after.hub.timers.fates = reactor.hub.timers.fates)
    (underWay : ∀ ticket ∈ after.underWay, ticket ∈ reactor.underWay)
    (same : startedIn (trace ++ [act]) ++ after.round.inHand.map (·.ticket) =
      startedIn trace ++ reactor.round.inHand.map (·.ticket))
    (quiet : ∀ ticket, act.cancels ticket = false) : Settled (trace ++ [act]) after := by
  refine ⟨?_, ?_, ?_, ?_⟩
  · rw [same, fates]
    exact settled.fired
  · rw [same]
    exact settled.once
  · intro ticket was
    rw [cancelledIn_quiet quiet] at was
    rw [fates]
    exact settled.cancelled ticket was
  · intro ticket member
    rw [cancelledIn_quiet quiet, fates]
    exact settled.underWay ticket (underWay ticket member)

theorem submit {hub : Hub Job Body} {round : Round Job Body} {clock : Nat}
    (settled : Settled trace ⟨hub, round, clock⟩) (deadline : Nat)
    (action : TimerAction Job Body) :
    Settled (trace ++ [.submitted (hub.submit deadline action).1 deadline action])
      ⟨(hub.submit deadline action).2, round, clock⟩ := by
  have keeps : ∀ {ticket : Ticket} {fate : Fate}, hub.timers.fates[ticket]? = some fate →
      (hub.submit deadline action).2.timers.fates[ticket]? = some fate := by
    intro ticket fate known
    rw [hub.submit_fate deadline action (lt_of_known known)]
    exact known
  refine ⟨?_, ?_, ?_, ?_⟩
  · intro ticket member
    rw [startedIn_quiet rfl] at member
    exact keeps (settled.fired ticket member)
  · rw [startedIn_quiet rfl]
    exact settled.once
  · intro ticket was
    rw [cancelledIn_quiet fun _ => rfl] at was
    exact keeps (settled.cancelled ticket was)
  · intro ticket member
    rw [cancelledIn_quiet fun _ => rfl]
    by_cases isOpen : hub.isOpen = true
    · obtain ⟨channel, -, fates⟩ := hub.submit_open isOpen deadline action
      rw [Reactor.underWay, channel, List.filterMap_append] at member
      rcases List.mem_append.1 member with old | new
      · exact (settled.underWay ticket old).imp keeps id
      · cases List.mem_singleton.1 new
        refine .inl ?_
        simp [fates]
    · rw [Reactor.underWay, (hub.submit_closed isOpen deadline action).1] at member
      exact (settled.underWay ticket member).imp keeps id

theorem cancel {hub : Hub Job Body} {round : Round Job Body} {clock : Nat}
    (settled : Settled trace ⟨hub, round, clock⟩) (ticket : Ticket) :
    Settled (trace ++ [.cancelled ticket (hub.cancel ticket).1])
      ⟨(hub.cancel ticket).2, round, clock⟩ := by
  have answer : (hub.cancel ticket).1 = hub.timers.isActive ticket :=
    (TimerQueue.cancel_keeps _ _).1
  by_cases active : hub.timers.isActive ticket = true
  · have pending := TimerQueue.isActive_iff.1 active
    have keeps : ∀ {other : Ticket} {fate : Fate}, other ≠ ticket →
        hub.timers.fates[other]? = some fate →
          (hub.cancel ticket).2.timers.fates[other]? = some fate := by
      intro other fate apart known
      exact (TimerQueue.cancel_other _ apart).trans known
    have now : (hub.cancel ticket).2.timers.fates[ticket]? = some .cancelled := by
      unfold Hub.cancel TimerQueue.cancel
      rw [if_pos active]
      exact List.getElem?_set_self (lt_of_known pending)
    refine ⟨?_, ?_, ?_, ?_⟩
    · intro other member
      rw [startedIn_quiet rfl] at member
      have fired := settled.fired other member
      refine keeps ?_ fired
      rintro rfl
      rw [pending] at fired
      cases fired
    · rw [startedIn_quiet rfl]
      exact settled.once
    · intro other was
      by_cases same : other = ticket
      · rw [same]
        exact now
      · rw [cancelledIn_concat, answer, active] at was
        have apart : (ticket == other) = false := beq_eq_false_iff_ne.2 fun equal => same equal.symm
        simp only [Act.cancels, apart, Bool.and_false, Bool.or_false] at was
        exact keeps same (settled.cancelled other was)
    · intro other member
      rw [cancelledIn_concat, answer, active]
      by_cases same : other = ticket
      · exact .inr (by simp [Act.cancels, same])
      · refine (settled.underWay other member).imp (keeps same) ?_
        intro was
        rw [was]
        rfl
  · have unchanged : (hub.cancel ticket).2 = hub := by
      unfold Hub.cancel TimerQueue.cancel
      rw [if_neg active]
    rw [unchanged]
    refine settled.frame rfl (fun _ member => member) (by rw [startedIn_quiet rfl]) ?_
    intro other
    rw [answer, Bool.eq_false_iff.2 active]
    rfl

theorem pop {hub : Hub Job Body} {clock now : Nat}
    {batch : List (TimerEntry (TimerAction Job Body))} {entry : TimerEntry (TimerAction Job Body)}
    {fires : Bool} {timers : TimerQueue (TimerAction Job Body)}
    (settled : Settled trace ⟨hub, .gathering now batch, clock⟩)
    (numbered : Numbered trace ⟨hub, .gathering now batch, clock⟩)
    (stored : Stored trace ⟨hub, .gathering now batch, clock⟩)
    (popped : TimerQueue.Popped hub.timers now entry fires timers) :
    Settled (trace ++ [.popped entry.ticket fires])
      ⟨{ hub with timers := timers },
        .gathering now (if fires then batch ++ [entry] else batch), clock⟩ := by
  cases fires with
  | false =>
      have fates : timers.fates = hub.timers.fates := popped.fates
      exact settled.frame fates (fun _ member => member) (by rw [startedIn_quiet rfl]; rfl)
        fun _ => rfl
  | true =>
      have pending := TimerQueue.isActive_iff.1 popped.pending.symm
      have now : timers.fates[entry.ticket]? = some .fired := by
        rw [popped.fates, if_pos rfl]
        exact List.getElem?_set_self (lt_of_known pending)
      have keeps : ∀ {other : Ticket} {fate : Fate}, other ≠ entry.ticket →
          hub.timers.fates[other]? = some fate → timers.fates[other]? = some fate := by
        intro other fate apart known
        exact (popped.fate_other apart).trans known
      have fresh : entry.ticket ∉ startedIn trace ++ batch.map (·.ticket) := by
        intro member
        have fired := settled.fired _ member
        rw [pending] at fired
        cases fired
      have whole : startedIn (trace ++ [.popped entry.ticket true]) ++
          (batch ++ [entry]).map (·.ticket) =
            (startedIn trace ++ batch.map (·.ticket)) ++ [entry.ticket] := by
        rw [startedIn_quiet rfl, List.map_append, List.append_assoc]
        rfl
      refine ⟨?_, ?_, ?_, ?_⟩
      · intro other member
        rw [if_pos rfl, Round.inHand, whole] at member
        rcases List.mem_append.1 member with before | last
        · refine keeps ?_ (settled.fired other before)
          rintro rfl
          exact fresh before
        · rw [List.mem_singleton.1 last]
          exact now
      · rw [if_pos rfl, Round.inHand, whole]
        exact settled.once.append (List.nodup_singleton _) (by simpa using fresh)
      · intro other was
        rw [cancelledIn_quiet fun _ => rfl] at was
        have cancelled := settled.cancelled other was
        refine keeps ?_ cancelled
        rintro rfl
        rw [pending] at cancelled
        cases cancelled
      · intro other member
        rw [cancelledIn_quiet fun _ => rfl]
        refine (settled.underWay other member).imp (keeps ?_) id
        rintro rfl
        exact numbered.notMem_underWay (stored.mem_appliedIn popped.mem_heap) member

/-- **One step changes nothing that is settled.** -/
theorem step (settled : Settled trace reactor) (numbered : Numbered trace reactor)
    (stored : Stored trace reactor) (moved : reactor.Step act after) :
    Settled (trace ++ [act]) after := by
  cases moved with
  | submits deadline action => exact settled.submit deadline action
  | cancels ticket => exact settled.cancel ticket
  | asks grace =>
      obtain ⟨timers, -, tickets, -⟩ := Hub.requestStop_keeps _ grace
      refine settled.frame (congrArg _ timers) ?_ (by rw [startedIn_quiet rfl]) fun _ => rfl
      intro ticket member
      rwa [Reactor.underWay, tickets] at member
  | @applies hub later clock command received =>
      obtain ⟨channel, timers, -⟩ := Hub.receive?_eq received
      obtain ⟨sameChannel, -, sameFates⟩ := later.apply_keeps command
      refine settled.frame (sameFates.trans (congrArg _ timers)) ?_ (by rw [startedIn_quiet rfl])
        fun _ => rfl
      intro ticket member
      obtain ⟨queued, inChannel, same⟩ := List.mem_filterMap.1 member
      rw [sameChannel] at inChannel
      refine List.mem_filterMap.2 ⟨queued, ?_, same⟩
      rw [channel]
      exact List.mem_cons_of_mem _ inChannel
  | pops popped => exact settled.pop numbered stored (TimerQueue.popDue?_popped popped)
  | starts may =>
      refine settled.frame rfl (fun _ member => member) ?_ fun _ => rfl
      rw [startedIn_concat, List.append_assoc]
      rfl
  | closes =>
      refine settled.frame rfl ?_ (by rw [startedIn_quiet rfl]; rfl) fun _ => rfl
      intro ticket member
      cases member
  | _ =>
      refine settled.frame rfl (fun _ member => member) ?_ fun _ => rfl
      exact congrArg (· ++ _) (startedIn_quiet rfl)

end Settled

end Reactor

end EmbeddedHttp
