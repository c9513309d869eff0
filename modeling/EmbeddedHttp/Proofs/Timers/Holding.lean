/-
# EmbeddedHttp.Proofs.Timers.Holding -- what a timer queue holds

A queue holds a list of entries (`TimerQueue.Holds`) when these are, in the order in which
they are due, the entries of its heap whose tickets are pending.  For each operation it is
said here what it answers and what the queue holds afterwards, in terms of that list alone.
Cancelled entries may still lie in the heap; they are no part of the list.
-/
import EmbeddedHttp.TimerQueue
import EmbeddedHttp.Proofs.Timers.Draining

namespace EmbeddedHttp

set_option autoImplicit false

variable {α : Type}

/-! ## The order of entries -/

namespace TimerEntry

/-- One entry is due before another, or at the same instant and was scheduled first. -/
def Before (one other : TimerEntry α) : Prop :=
  one.deadline < other.deadline ∨ one.deadline = other.deadline ∧ one.seq < other.seq

theorem isGE_iff_not_before (one other : TimerEntry α) :
    (cmp one other).isGE = true ↔ ¬other.Before one := by
  rw [cmp, Before]
  rcases Nat.lt_trichotomy one.deadline other.deadline with first | same | last
  · simp [Nat.compare_eq_gt.2 first, Ordering.then]
    omega
  · simp [same, Ordering.then, Nat.isGE_compare]
  · simp [Nat.compare_eq_lt.2 last, Ordering.then]
    omega

theorem cmp_swap (one other : TimerEntry α) : cmp one other = (cmp other one).swap := by
  rw [cmp, cmp, Ordering.swap_then, Nat.compare_swap, Nat.compare_swap]

instance : Std.TransCmp (@cmp α) where
  eq_swap := cmp_swap _ _
  isLE_trans := by
    intro a b c first second
    rw [cmp_swap, Ordering.isLE_swap, isGE_iff_not_before] at first second ⊢
    unfold Before at *
    omega

end TimerEntry

namespace TimerQueue

open TimerEntry (Before)

variable {queue : TimerQueue α} {live : List (TimerEntry α)} {ticket : Ticket}

theorem isActive_iff : queue.isActive ticket = true ↔ queue.fates[ticket]? = some .pending := by
  rw [isActive, fate?, beq_iff_eq]

theorem isActive_congr {other : TimerQueue α} (same : queue.fates[ticket]? = other.fates[ticket]?) :
    queue.isActive ticket = other.isActive ticket := by
  rw [isActive, isActive, fate?, fate?, same]

theorem lt_of_isActive (active : queue.isActive ticket = true) : ticket < queue.fates.length :=
  (List.getElem?_eq_some_iff.1 (isActive_iff.1 active)).1

/-- What is drawn is pending, and nothing else changes. -/
theorem isActive_draw (queue : TimerQueue α) (ticket : Ticket) :
    queue.draw.2.isActive ticket = (queue.isActive ticket || ticket == queue.fates.length) := by
  show ((queue.fates ++ [Fate.pending])[ticket]? == some .pending) =
    (queue.fates[ticket]? == some .pending || ticket == queue.fates.length)
  rcases Nat.lt_trichotomy ticket queue.fates.length with before | rfl | beyond
  · simp [List.getElem?_append_left before, before.ne]
  · simp
  · rw [List.getElem?_eq_none, List.getElem?_eq_none beyond.le]
    · simp [beyond.ne']
    · rw [List.length_append]
      exact beyond

/-! ## The list that is held -/

/-- These are the entries whose tickets are pending, in the order in which they are due. -/
structure Holds (queue : TimerQueue α) (live : List (TimerEntry α)) : Prop where
  ordered : queue.heap.Ordered TimerEntry.cmp
  inOrder : live.Pairwise Before
  all : live.Perm (queue.heap.toList.filter fun entry => queue.isActive entry.ticket)
  earlier : ∀ entry ∈ queue.heap.toList, entry.seq < queue.nextSeq
  drawn : ∀ entry ∈ queue.heap.toList, entry.ticket < queue.fates.length
  seqs : (queue.heap.toList.map (·.seq)).Nodup
  tickets : (queue.heap.toList.map (·.ticket)).Nodup

/-- There is only one way to put entries in order. -/
theorem eq_of_inOrder {one other : List (TimerEntry α)} (first : one.Pairwise Before)
    (second : other.Pairwise Before) (same : one.Perm other) : one = other := by
  refine same.eq_of_pairwise (fun a b _ _ before after => ?_) first second
  unfold Before at before after
  omega

/-- Behind the entries that are due no later. -/
def insertBehind (entry : TimerEntry α) (live : List (TimerEntry α)) : List (TimerEntry α) :=
  live.orderedInsert (fun one other => one.deadline < other.deadline) entry

theorem insertBehind_perm (entry : TimerEntry α) (live : List (TimerEntry α)) :
    (insertBehind entry live).Perm (entry :: live) :=
  List.perm_orderedInsert _ entry live

theorem insertBehind_inOrder {entry : TimerEntry α} (inOrder : live.Pairwise Before)
    (last : ∀ other ∈ live, other.seq < entry.seq) :
    (insertBehind entry live).Pairwise Before := by
  induction live with
  | nil => exact List.pairwise_singleton _ _
  | cons first rest ih =>
      obtain ⟨before, restInOrder⟩ := List.pairwise_cons.1 inOrder
      obtain ⟨firstEarlier, restEarlier⟩ := List.forall_mem_cons.1 last
      by_cases less : entry.deadline < first.deadline
      · rw [insertBehind, List.orderedInsert, if_pos less]
        refine List.pairwise_cons.2 ⟨List.forall_mem_cons.2 ⟨.inl less, ?_⟩, inOrder⟩
        intro other member
        rcases before other member with sooner | ⟨same, -⟩
        · exact .inl (less.trans sooner)
        · exact .inl (same ▸ less)
      · rw [insertBehind, List.orderedInsert, if_neg less]
        refine List.pairwise_cons.2 ⟨fun other member => ?_, ih restInOrder restEarlier⟩
        rcases List.mem_cons.1 ((insertBehind_perm entry rest).subset member) with rfl | inRest
        · unfold Before
          omega
        · exact before other inRest

namespace Holds

theorem mem_iff (holds : queue.Holds live) (entry : TimerEntry α) :
    entry ∈ live ↔ entry ∈ queue.heap.toList ∧ queue.isActive entry.ticket = true := by
  rw [holds.all.mem_iff, List.mem_filter]

theorem empty : Holds (empty : TimerQueue α) [] where
  ordered := trivial
  inOrder := .nil
  all := .refl _
  earlier _ member := by cases member
  drawn _ member := by cases member
  seqs := .nil
  tickets := .nil

theorem draw (holds : queue.Holds live) : queue.draw.2.Holds live where
  ordered := holds.ordered
  inOrder := holds.inOrder
  all := by
    refine holds.all.trans (.of_eq (List.filter_congr fun entry member => ?_))
    exact isActive_congr (List.getElem?_append_left (holds.drawn entry member)).symm
  earlier := holds.earlier
  drawn entry member := by
    show entry.ticket < (queue.fates ++ [Fate.pending]).length
    rw [List.length_append]
    exact Nat.lt_add_right _ (holds.drawn entry member)
  seqs := holds.seqs
  tickets := holds.tickets

theorem schedule (holds : queue.Holds live) (deadline : Nat) (action : α)
    (drawn : ticket < queue.fates.length) (fresh : ticket ∉ queue.heap.toList.map (·.ticket)) :
    (queue.schedule deadline action ticket).Holds
      (if queue.isActive ticket then insertBehind ⟨deadline, queue.nextSeq, ticket, action⟩ live
        else live) := by
  let entry : TimerEntry α := ⟨deadline, queue.nextSeq, ticket, action⟩
  have entries : (queue.schedule deadline action ticket).heap.toList.Perm
      (entry :: queue.heap.toList) := Heap.toList_push _ entry _
  have members : ∀ {P : TimerEntry α → Prop}, P entry → (∀ other ∈ queue.heap.toList, P other) →
      ∀ other ∈ (queue.schedule deadline action ticket).heap.toList, P other :=
    fun new old other member =>
      List.forall_mem_cons.2 ⟨new, old⟩ other (entries.subset member)
  refine ⟨holds.ordered.push entry, ?_, ?_, ?_, ?_, ?_, ?_⟩
  · split
    · refine insertBehind_inOrder holds.inOrder fun other member => ?_
      exact holds.earlier other ((holds.mem_iff other).1 member).1
    · exact holds.inOrder
  · refine .trans ?_ (entries.filter _).symm
    -- the fates are as they were
    show List.Perm _ ((entry :: queue.heap.toList).filter fun entry => queue.isActive entry.ticket)
    rw [List.filter_cons]
    split
    · exact (insertBehind_perm entry live).trans (holds.all.cons entry)
    · exact holds.all
  · exact members (Nat.lt_succ_self _) fun other member =>
      Nat.lt_succ_of_lt (holds.earlier other member)
  · exact members drawn holds.drawn
  · refine (entries.map _).nodup_iff.2 (List.nodup_cons.2 ⟨fun old => ?_, holds.seqs⟩)
    obtain ⟨other, member, same⟩ := List.mem_map.1 old
    exact absurd same (holds.earlier other member).ne
  · exact (entries.map _).nodup_iff.2 (List.nodup_cons.2 ⟨fresh, holds.tickets⟩)

end Holds

theorem isActive_cancel (queue : TimerQueue α) (ticket other : Ticket) :
    (queue.cancel ticket).2.isActive other = (queue.isActive other && other != ticket) := by
  rw [cancel]
  split
  case isTrue active =>
    by_cases same : other = ticket
    · have drawn := lt_of_isActive active
      simp [isActive, fate?, same, drawn]
    · have apart : ticket ≠ other := fun equal => same equal.symm
      simp [isActive, fate?, List.getElem?_set_ne apart, same]
  case isFalse idle =>
    by_cases same : other = ticket
    · simp [same, Bool.eq_false_iff.2 idle]
    · simp [same]

/-- Cancelling tells whether the entry was pending, and leaves everything but its fate. -/
theorem cancel_keeps (queue : TimerQueue α) (ticket : Ticket) :
    (queue.cancel ticket).1 = queue.isActive ticket ∧
      (queue.cancel ticket).2.heap = queue.heap ∧
      (queue.cancel ticket).2.nextSeq = queue.nextSeq ∧
      (queue.cancel ticket).2.fates.length = queue.fates.length := by
  rw [cancel]
  split
  case isTrue active => exact ⟨active.symm, rfl, rfl, List.length_set⟩
  case isFalse idle => exact ⟨(Bool.eq_false_iff.2 idle).symm, rfl, rfl, rfl⟩

theorem Holds.cancel (holds : queue.Holds live) (ticket : Ticket) :
    (queue.cancel ticket).2.Holds (live.filter (·.ticket != ticket)) := by
  obtain ⟨-, heap, nextSeq, drawn⟩ := queue.cancel_keeps ticket
  refine ⟨heap ▸ holds.ordered, holds.inOrder.filter _, ?_, ?_, ?_, heap ▸ holds.seqs,
    heap ▸ holds.tickets⟩
  · refine (holds.all.filter _).trans (.of_eq ?_)
    rw [heap, List.filter_filter]
    refine List.filter_congr fun entry _ => ?_
    rw [isActive_cancel, Bool.and_comm]
  · rw [heap, nextSeq]
    exact holds.earlier
  · rw [heap, drawn]
    exact holds.drawn

/-! ## Taking entries out -/

namespace Holds

variable {test : TimerEntry α → Bool} {taken : List (TimerEntry α)}
  {rest : Heap (TimerEntry α)} {fates : List Fate}

/-- What was taken while it passed a test came in the order in which it was due. -/
theorem taken_inOrder (holds : queue.Holds live)
    (drains : Heap.Drains TimerEntry.cmp test queue.heap taken rest) : taken.Pairwise Before := by
  have seqs : (taken.map (·.seq)).Nodup := by
    have both := (drains.all.map (·.seq)).nodup_iff.2 holds.seqs
    rw [List.map_append] at both
    exact both.of_append_left
  refine (drains.inOrder.and (List.pairwise_map.1 seqs)).imp fun both => ?_
  obtain ⟨notAfter, apart⟩ := both
  rw [TimerEntry.isGE_iff_not_before] at notAfter
  unfold Before at notAfter ⊢
  omega

/-- The queue when entries were taken out of its heap and fates were changed. -/
theorem left (holds : queue.Holds live)
    (drains : Heap.Drains TimerEntry.cmp test queue.heap taken rest)
    (drawn : fates.length = queue.fates.length) {kept : List (TimerEntry α)}
    (inOrder : kept.Pairwise Before)
    (all : kept.Perm (rest.toList.filter fun entry =>
      ({ queue with heap := rest, fates := fates } : TimerQueue α).isActive entry.ticket)) :
    ({ queue with heap := rest, fates := fates } : TimerQueue α).Holds kept := by
  have inHeap : ∀ entry ∈ rest.toList, entry ∈ queue.heap.toList :=
    fun entry member => drains.all.subset (List.mem_append_right _ member)
  have sublist : rest.toList.Sublist (taken ++ rest.toList) := List.sublist_append_right _ _
  refine ⟨drains.ordered, inOrder, all, ?_, ?_, ?_, ?_⟩
  · exact fun entry member => holds.earlier entry (inHeap entry member)
  · exact fun entry member => drawn ▸ holds.drawn entry (inHeap entry member)
  · exact ((drains.all.map _).nodup_iff.2 holds.seqs).sublist (sublist.map _)
  · exact ((drains.all.map _).nodup_iff.2 holds.tickets).sublist (sublist.map _)

/-- **The next deadline is that of the first entry held.** -/
theorem nextDeadline (holds : queue.Holds live) :
    queue.nextDeadline.1 = live.head?.map (·.deadline) ∧ queue.nextDeadline.2.Holds live := by
  have drains := Heap.drainWhile_drains (fun entry => !queue.isActive entry.ticket) holds.ordered
  rw [TimerQueue.nextDeadline]
  revert drains
  generalize queue.heap.drainWhile TimerEntry.cmp (fun entry => !queue.isActive entry.ticket) =
    drained
  obtain ⟨taken, rest⟩ := drained
  intro drains
  -- what was dropped was not pending
  have all : live.Perm (rest.toList.filter fun entry => queue.isActive entry.ticket) := by
    have dropped : taken.filter (fun entry => queue.isActive entry.ticket) = [] := by
      refine List.filter_eq_nil_iff.2 fun entry member => ?_
      simpa using drains.passed entry member
    have both := holds.all.trans (drains.all.filter _).symm
    rwa [List.filter_append, dropped, List.nil_append] at both
  refine ⟨?_, holds.left drains rfl holds.inOrder all⟩
  cases rest with
  | empty => rw [all.eq_nil]; rfl
  | node top left right =>
      have first : top ∈ live := by
        refine all.mem_iff.2 (List.mem_filter.2 ⟨List.mem_cons_self, ?_⟩)
        simpa using drains.stopped top rfl
      cases live with
      | nil => cases first
      | cons head later =>
          have inRest := (List.mem_filter.1 (all.mem_iff.1 List.mem_cons_self)).1
          have notBefore := (TimerEntry.isGE_iff_not_before _ _).1 (drains.ordered.top head inRest)
          rcases List.mem_cons.1 first with same | inLater
          · rw [same]; rfl
          · exact absurd ((List.pairwise_cons.1 holds.inOrder).1 top inLater) notBefore

end Holds

/-! ## Firing -/

theorem length_fire (due : List (TimerEntry α)) (fates : List Fate) :
    (fire due fates).2.length = fates.length := by
  fun_induction fire due fates with
  | case1 => rfl
  | case2 entry rest fates pending fired ih => rw [ih, List.length_set]
  | case3 entry rest fates past ih => exact ih

/-- No ticket that is due stays pending, and no other changes. -/
theorem fire_pending (due : List (TimerEntry α)) (fates : List Fate) (ticket : Ticket) :
    (fire due fates).2[ticket]? = some .pending ↔
      fates[ticket]? = some .pending ∧ ticket ∉ due.map (·.ticket) := by
  fun_induction fire due fates with
  | case1 => simp
  | case2 entry rest fates pending fired ih =>
      rw [ih, List.map_cons, List.mem_cons]
      by_cases same : ticket = entry.ticket
      · simp [same, List.getElem?_set]
      · rw [List.getElem?_set_ne fun equal => same equal.symm]
        simp [same]
  | case3 entry rest fates past ih =>
      rw [ih, List.map_cons, List.mem_cons]
      by_cases same : ticket = entry.ticket
      · simp [same, past]
      · simp [same]

/-- The actions are those of the pending ones, each ticket being due once. -/
theorem fire_actions {due : List (TimerEntry α)} (fates : List Fate)
    (tickets : (due.map (·.ticket)).Nodup) :
    (fire due fates).1 =
      (due.filter fun entry => decide (fates[entry.ticket]? = some .pending)).map (·.action) := by
  fun_induction fire due fates with
  | case1 => rfl
  | case2 entry rest fates pending fired ih =>
      obtain ⟨once, others⟩ := List.nodup_cons.1 tickets
      have unchanged : ∀ other ∈ rest, (fates.set entry.ticket .fired)[other.ticket]? =
          fates[other.ticket]? := by
        intro other member
        exact List.getElem?_set_ne fun same => once (List.mem_map.2 ⟨other, member, same.symm⟩)
      rw [List.filter_cons_of_pos (by simpa using pending), List.map_cons, ih others]
      refine congrArg (fun others => entry.action :: List.map TimerEntry.action others) ?_
      exact List.filter_congr fun other member => by rw [unchanged other member]
  | case3 entry rest fates past ih =>
      rw [List.filter_cons_of_neg (by simpa using past)]
      exact ih (List.nodup_cons.1 tickets).2

theorem filter_append_left {β : Type} {test : β → Bool} {one other : List β}
    (passed : ∀ entry ∈ one, test entry = true) (failed : ∀ entry ∈ other, test entry = false) :
    (one ++ other).filter test = one := by
  rw [List.filter_append, List.filter_eq_self.2 passed, List.filter_eq_nil_iff.2, List.append_nil]
  exact fun entry member => Bool.eq_false_iff.1 (failed entry member)

/-- **Exactly the entries that are due are fired, in order, and the others are held on.** -/
theorem Holds.popExpired (holds : queue.Holds live) (now : Nat) :
    (queue.popExpired now).1 = (live.filter (·.deadline ≤ now)).map (·.action) ∧
      (queue.popExpired now).2.Holds (live.filter (now < ·.deadline)) ∧
      ∀ ticket, (queue.popExpired now).2.isActive ticket = true ↔
        queue.isActive ticket = true ∧ ∀ entry ∈ live, entry.deadline ≤ now →
          entry.ticket ≠ ticket := by
  have drains := Heap.drainWhile_drains
    (fun entry : TimerEntry α => decide (entry.deadline ≤ now)) holds.ordered
  rw [TimerQueue.popExpired]
  revert drains
  generalize queue.heap.drainWhile TimerEntry.cmp
    (fun entry => decide (entry.deadline ≤ now)) = drained
  obtain ⟨due, rest⟩ := drained
  intro drains
  have passed : ∀ entry ∈ due, entry.deadline ≤ now :=
    fun entry member => of_decide_eq_true (drains.passed entry member)
  have failed : ∀ entry ∈ rest.toList, now < entry.deadline := by
    intro entry member
    refine Nat.lt_of_not_le (of_decide_eq_false (drains.failed (fun one other notAfter late => ?_)
      entry member))
    rw [TimerEntry.isGE_iff_not_before] at notAfter
    unfold Before at notAfter
    simp only [decide_eq_false_iff_not] at late ⊢
    omega
  have tickets : ((due ++ rest.toList).map (·.ticket)).Nodup :=
    (drains.all.map _).nodup_iff.2 holds.tickets
  rw [List.map_append, List.nodup_append] at tickets
  obtain ⟨dueOnce, -, apart⟩ := tickets
  have all : live.Perm (due.filter (queue.isActive ·.ticket) ++
      rest.toList.filter (queue.isActive ·.ticket)) := by
    rw [← List.filter_append]
    exact holds.all.trans (drains.all.filter _).symm
  have taken : live.filter (·.deadline ≤ now) = due.filter (queue.isActive ·.ticket) := by
    refine eq_of_inOrder (holds.inOrder.filter _) ((holds.taken_inOrder drains).filter _)
      ((all.filter _).trans (.of_eq (filter_append_left ?_ ?_)))
    · exact fun entry member => decide_eq_true (passed entry (List.mem_filter.1 member).1)
    · exact fun entry member => decide_eq_false
        (failed entry (List.mem_filter.1 member).1).not_ge
  have kept : (live.filter (now < ·.deadline)).Perm
      (rest.toList.filter (queue.isActive ·.ticket)) := by
    refine ((all.trans List.perm_append_comm).filter _).trans (.of_eq (filter_append_left ?_ ?_))
    · exact fun entry member => decide_eq_true (failed entry (List.mem_filter.1 member).1)
    · exact fun entry member => decide_eq_false
        (passed entry (List.mem_filter.1 member).1).not_gt
  refine ⟨?_, holds.left drains (length_fire due _) (holds.inOrder.filter _)
    (kept.trans (.of_eq (List.filter_congr fun entry member => ?_))), fun ticket => ?_⟩
  · rw [fire_actions _ dueOnce, taken]
    refine congrArg (List.map TimerEntry.action) (List.filter_congr fun entry _ => ?_)
    rw [Bool.eq_iff_iff, decide_eq_true_iff, isActive_iff]
  · have notDue : entry.ticket ∉ due.map (·.ticket) := fun isDue =>
      apart _ isDue _ (List.mem_map_of_mem member) rfl
    rw [Bool.eq_iff_iff, isActive_iff, isActive_iff, fire_pending]
    exact ⟨fun pending => ⟨pending, notDue⟩, fun both => both.1⟩
  · rw [isActive_iff, isActive_iff, fire_pending]
    refine and_congr_right fun pending => ⟨fun notDue entry member early same => ?_, ?_⟩
    · have inDue : entry ∈ due.filter (queue.isActive ·.ticket) :=
        taken ▸ List.mem_filter.2 ⟨member, decide_eq_true early⟩
      exact notDue (same ▸ List.mem_map_of_mem (List.mem_filter.1 inDue).1)
    · intro others isDue
      obtain ⟨entry, inDue, rfl⟩ := List.mem_map.1 isDue
      have member : entry ∈ live := by
        refine all.mem_iff.2 (List.mem_append_left _ (List.mem_filter.2 ⟨inDue, ?_⟩))
        exact isActive_iff.2 pending
      exact others entry member (passed entry inDue) rfl

end TimerQueue

end EmbeddedHttp
