/-
# EmbeddedHttp.Proofs.Timers.Popping -- taking due entries out one at a time

Handles may cancel an entry while the entries that are due are being taken out, so what
counts is what happens to one entry.  `popDue?` takes out the first entry if it is due,
and fires it if its ticket is still pending.  Taking out everything that is due is to do
this until there is none (`popExpired_of_some`, `popExpired_of_none`).
-/
import EmbeddedHttp.Proofs.Timers.Holding

namespace EmbeddedHttp.TimerQueue

set_option autoImplicit false

open TimerEntry (Before)

variable {α : Type} {queue later : TimerQueue α} {live : List (TimerEntry α)} {now : Nat}
  {entry : TimerEntry α} {fires : Bool}

/-- Take out the first entry if it is due, and tell whether it fires. -/
def popDue? (queue : TimerQueue α) (now : Nat) : Option (TimerEntry α × Bool × TimerQueue α) :=
  match queue.heap with
  | .empty => none
  | .node top left right =>
      if top.deadline ≤ now then
        let fires := queue.isActive top.ticket
        some (top, fires, { queue with
          heap := Heap.merge TimerEntry.cmp left right
          fates := if fires then queue.fates.set top.ticket .fired else queue.fates })
      else none

/-- What is known of an entry that was taken out. -/
structure Popped (queue : TimerQueue α) (now : Nat) (entry : TimerEntry α) (fires : Bool)
    (later : TimerQueue α) : Prop where
  due : entry.deadline ≤ now
  pending : fires = queue.isActive entry.ticket
  fates : later.fates = if fires then queue.fates.set entry.ticket .fired else queue.fates
  nextSeq : later.nextSeq = queue.nextSeq
  heap : ∃ left right, queue.heap = .node entry left right ∧
    later.heap = Heap.merge TimerEntry.cmp left right

theorem popDue?_popped (popped : queue.popDue? now = some (entry, fires, later)) :
    Popped queue now entry fires later := by
  unfold popDue? at popped
  split at popped
  · cases popped
  · rename_i top left right shape
    split at popped
    · rename_i due
      simp only [Option.some.injEq, Prod.mk.injEq] at popped
      obtain ⟨rfl, rfl, rfl⟩ := popped
      exact ⟨due, rfl, rfl, rfl, left, right, shape, rfl⟩
    · cases popped

namespace Popped

variable (popped : Popped queue now entry fires later)

include popped

theorem size : later.heap.size < queue.heap.size := by
  obtain ⟨left, right, shape, rest⟩ := popped.heap
  rw [shape, rest, Heap.size_merge]
  exact Nat.lt_succ_self _

theorem mem_heap : entry ∈ queue.heap.toList := by
  obtain ⟨left, right, shape, -⟩ := popped.heap
  rw [shape]
  exact List.mem_cons_self

theorem subset {other : TimerEntry α} (member : other ∈ later.heap.toList) :
    other ∈ queue.heap.toList := by
  obtain ⟨left, right, shape, rest⟩ := popped.heap
  rw [rest] at member
  rw [shape]
  exact List.mem_cons_of_mem _ ((Heap.toList_merge _ _ _).subset member)

theorem fates_length : later.fates.length = queue.fates.length := by
  rw [popped.fates]
  split
  · exact List.length_set
  · rfl

/-- Taking an entry out changes the fate of no other ticket. -/
theorem fate_other {ticket : Ticket} (other : ticket ≠ entry.ticket) :
    later.fates[ticket]? = queue.fates[ticket]? := by
  rw [popped.fates]
  split
  · exact List.getElem?_set_ne fun same => other same.symm
  · rfl

/-- **A pending entry that is taken out was the first one held**, and one that is not
pending was not held. -/
theorem holds (held : queue.Holds live) :
    ∃ kept, later.Holds kept ∧ live = if fires then entry :: kept else kept := by
  obtain ⟨left, right, shape, rest⟩ := popped.heap
  have ordered := held.ordered
  have tickets := held.tickets
  rw [shape] at ordered tickets
  obtain ⟨once, -⟩ := List.nodup_cons.1 tickets
  have entries := Heap.toList_merge TimerEntry.cmp left right
  have others : ∀ other ∈ later.heap.toList, other.ticket ≠ entry.ticket := by
    intro other member same
    rw [rest] at member
    exact once (List.mem_map.2 ⟨other, entries.subset member, same⟩)
  have drains : Heap.Drains TimerEntry.cmp (fun other => other.ticket == entry.ticket) queue.heap
      [entry] later.heap := by
    refine ⟨?_, by simp, by simp, ?_, ?_⟩
    · rw [rest, shape]
      exact entries.cons entry
    · rw [rest]
      exact ordered.2.1.merge ordered.2.2
    · intro top first
      rw [beq_eq_false_iff_ne]
      apply others top
      cases shapeOfRest : later.heap with
      | empty =>
          rw [shapeOfRest] at first
          cases first
      | node other one two =>
          rw [shapeOfRest] at first
          cases first
          exact List.mem_cons_self
  have sameQueue : later = { queue with heap := later.heap, fates := later.fates } := by
    cases later
    simp [popped.nextSeq.symm]
  have pendingLater : ∀ other ∈ later.heap.toList,
      later.isActive other.ticket = queue.isActive other.ticket := fun other member =>
    isActive_congr (popped.fate_other (others other member))
  have all : live.Perm ((entry :: later.heap.toList).filter (queue.isActive ·.ticket)) :=
    held.all.trans (drains.all.symm.filter _)
  rw [List.filter_cons, ← popped.pending, ← List.filter_congr pendingLater] at all
  cases fires with
  | false =>
      refine ⟨live, ?_, rfl⟩
      rw [sameQueue]
      exact held.left drains popped.fates_length held.inOrder (sameQueue ▸ all)
  | true =>
      rw [if_pos rfl] at all
      have first : entry ∈ live := all.mem_iff.2 List.mem_cons_self
      cases live with
      | nil => cases first
      | cons head kept =>
          have same : entry = head := by
            by_contra apart
            have inKept := (List.mem_cons.1 first).resolve_left apart
            have inHeap := ((held.mem_iff head).1 List.mem_cons_self).1
            rw [shape] at inHeap
            exact (TimerEntry.isGE_iff_not_before _ _).1 (ordered.top head inHeap)
              ((List.pairwise_cons.1 held.inOrder).1 entry inKept)
          subst same
          refine ⟨kept, ?_, rfl⟩
          rw [sameQueue]
          exact held.left drains popped.fates_length (List.pairwise_cons.1 held.inOrder).2
            (sameQueue ▸ (List.perm_cons entry).1 all)

end Popped

/-- Nothing to take out means that nothing held is due. -/
theorem Holds.none_due (held : queue.Holds live) (none : queue.popDue? now = none) :
    ∀ other ∈ live, now < other.deadline := by
  intro other member
  have inHeap := ((held.mem_iff other).1 member).1
  have ordered := held.ordered
  unfold popDue? at none
  cases shape : queue.heap with
  | empty =>
      rw [shape] at inHeap
      cases inHeap
  | node top left right =>
      rw [shape] at inHeap ordered none
      simp only at none
      split at none
      · cases none
      · rename_i late
        have notBefore := (TimerEntry.isGE_iff_not_before _ _).1 (ordered.top other inHeap)
        unfold Before at notBefore
        omega

/-! ## Taking out everything -/

theorem popExpired_of_none (none : queue.popDue? now = none) :
    queue.popExpired now = ([], queue) := by
  unfold popDue? at none
  cases shape : queue.heap with
  | empty =>
      unfold popExpired
      rw [shape, Heap.drainWhile]
      simp [fire, ← shape]
  | node top left right =>
      rw [shape] at none
      simp only at none
      split at none
      · cases none
      · rename_i late
        unfold popExpired
        rw [shape, Heap.drainWhile]
        simp [late, fire, ← shape]

theorem popExpired_of_some (popped : queue.popDue? now = some (entry, fires, later)) :
    queue.popExpired now =
      ((if fires then [entry.action] else []) ++ (later.popExpired now).1,
        (later.popExpired now).2) := by
  obtain ⟨due, active, fates, nextSeq, left, right, shape, rest⟩ := popDue?_popped popped
  unfold popExpired
  rw [shape, rest, Heap.drainWhile, if_pos (decide_eq_true due)]
  rw [isActive, fate?] at active
  cases fires with
  | true =>
      have pending : queue.fates[entry.ticket]? = some .pending := beq_iff_eq.1 active.symm
      simp [fire, pending, fates, nextSeq]
  | false =>
      have past : queue.fates[entry.ticket]? ≠ some .pending := by
        rw [← beq_eq_false_iff_ne]
        exact active.symm
      simp [fire, past, fates, nextSeq]

end EmbeddedHttp.TimerQueue
