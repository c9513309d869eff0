/-
# EmbeddedHttp.Proofs.Timers.Draining -- what is taken out of a heap

A heap in which no entry stands above a greater one (`Heap.Ordered`) stays so when heaps are
merged, and merging loses and repeats nothing.  So what is taken out of it while it passes a
test comes in order, is not less than anything that is left, and is followed by an entry that
fails the test, if any is left (`Heap.drainWhile_drains`).
-/
import EmbeddedHttp.Heap
import Mathlib.Data.List.Sort

namespace EmbeddedHttp.Heap

set_option autoImplicit false

variable {α : Type} {cmp : α → α → Ordering} {heap : Heap α}

/-- The entries, from the top down. -/
def toList : Heap α → List α
  | empty => []
  | node top left right => top :: (left.toList ++ right.toList)

/-- No entry stands above a greater one. -/
def Ordered (cmp : α → α → Ordering) : Heap α → Prop
  | empty => True
  | node top left right =>
      (∀ entry ∈ left.toList ++ right.toList, (cmp top entry).isGE = true) ∧
        left.Ordered cmp ∧ right.Ordered cmp

/-! ## Merging -/

theorem toList_merge (cmp : α → α → Ordering) (first second : Heap α) :
    (merge cmp first second).toList.Perm (first.toList ++ second.toList) := by
  fun_induction merge cmp first second with
  | case1 other => exact .refl _
  | case2 a left right => simp [toList]
  | case3 a left right b left' right' less ih =>
      -- the top of the second heap goes up, and everything else stays
      simp only [toList] at ih ⊢
      calc
        List.Perm _ (b :: ((a :: (left.toList ++ right.toList) ++ right'.toList) ++ left'.toList)) :=
            .cons b (ih.append_right left'.toList)
        List.Perm _ (b :: (a :: (left.toList ++ right.toList) ++ (left'.toList ++ right'.toList))) :=
            .cons b (by rw [List.append_assoc]; exact .append_left _ List.perm_append_comm)
        List.Perm _ _ := List.perm_middle.symm
  | case4 a left right b left' right' greater ih =>
      simp only [toList] at ih ⊢
      refine .cons a ?_
      calc
        List.Perm _ ((right.toList ++ b :: (left'.toList ++ right'.toList)) ++ left.toList) :=
            ih.append_right left.toList
        List.Perm _ (left.toList ++ (right.toList ++ b :: (left'.toList ++ right'.toList))) :=
            List.perm_append_comm
        List.Perm _ _ := by rw [← List.append_assoc]; exact .refl _

theorem Ordered.top [Std.TransCmp cmp] {top : α} {left right : Heap α}
    (ordered : (node top left right).Ordered cmp) :
    ∀ entry ∈ (node top left right).toList, (cmp top entry).isGE = true := by
  intro entry member
  rcases List.mem_cons.1 member with rfl | below
  · simp [Std.ReflCmp.compare_self]
  · exact ordered.1 entry below

theorem Ordered.merge [Std.TransCmp cmp] {first second : Heap α} (one : first.Ordered cmp)
    (other : second.Ordered cmp) : (Heap.merge cmp first second).Ordered cmp := by
  fun_induction Heap.merge cmp first second with
  | case1 other => exact other
  | case2 a left right => exact one
  | case3 a left right b left' right' less ih =>
      obtain ⟨below, onLeft, onRight⟩ := other
      refine ⟨fun entry member => ?_, ih one onRight, onLeft⟩
      -- what comes from the first heap is not above its top, which is less
      have greater : (cmp b a).isGE = true := by
        rw [Std.OrientedCmp.gt_of_lt less]
        rfl
      rw [List.mem_append, (toList_merge cmp _ _).mem_iff, List.mem_append] at member
      rcases member with (inFirst | inRight) | inLeft
      · exact Std.TransCmp.isGE_trans greater (one.top entry inFirst)
      · exact below entry (List.mem_append_right _ inRight)
      · exact below entry (List.mem_append_left _ inLeft)
  | case4 a left right b left' right' greater ih =>
      obtain ⟨below, onLeft, onRight⟩ := one
      refine ⟨fun entry member => ?_, ih onRight other, onLeft⟩
      have notLess : (cmp a b).isGE = true := by
        cases compared : cmp a b with
        | lt => exact absurd compared greater
        | _ => rfl
      rw [List.mem_append, (toList_merge cmp _ _).mem_iff, List.mem_append] at member
      rcases member with (inRight | inSecond) | inLeft
      · exact below entry (List.mem_append_right _ inRight)
      · exact Std.TransCmp.isGE_trans notLess (other.top entry inSecond)
      · exact below entry (List.mem_append_left _ inLeft)

theorem toList_push (cmp : α → α → Ordering) (entry : α) (heap : Heap α) :
    (heap.push cmp entry).toList.Perm (entry :: heap.toList) :=
  toList_merge cmp _ heap

theorem Ordered.push [Std.TransCmp cmp] (ordered : heap.Ordered cmp) (entry : α) :
    (heap.push cmp entry).Ordered cmp :=
  Ordered.merge ⟨fun _ member => (by cases member), trivial, trivial⟩ ordered

/-! ## Draining -/

/-- What was taken out of a heap while it passed a test, and what is left. -/
structure Drains (cmp : α → α → Ordering) (test : α → Bool) (heap : Heap α) (taken : List α)
    (rest : Heap α) : Prop where
  all : (taken ++ rest.toList).Perm heap.toList
  passed : ∀ entry ∈ taken, test entry = true
  inOrder : taken.Pairwise fun one other => (cmp one other).isGE = true
  ordered : rest.Ordered cmp
  stopped : ∀ top, rest.peek? = some top → test top = false

/-- **What is taken out of a heap comes in order, up to the first entry that fails.** -/
theorem drainWhile_drains [Std.TransCmp cmp] (test : α → Bool) (ordered : heap.Ordered cmp) :
    Drains cmp test heap (heap.drainWhile cmp test).1 (heap.drainWhile cmp test).2 := by
  fun_induction drainWhile cmp test heap with
  | case1 =>
      exact ⟨.refl _, fun _ member => (by cases member), .nil, trivial,
        fun _ none => (by cases none)⟩
  | case2 top left right passes further ih =>
      have later := ih (ordered.2.1.merge ordered.2.2)
      have below : (further.1 ++ further.2.toList).Perm (left.toList ++ right.toList) :=
        later.all.trans (toList_merge cmp left right)
      refine ⟨below.cons top, ?_, ?_, later.ordered, later.stopped⟩
      · exact List.forall_mem_cons.2 ⟨passes, later.passed⟩
      · refine List.pairwise_cons.2 ⟨fun entry member => ?_, later.inOrder⟩
        exact ordered.1 entry (below.subset (List.mem_append_left _ member))
  | case3 top left right fails =>
      refine ⟨.refl _, fun _ member => (by cases member), .nil, ordered, fun other same => ?_⟩
      cases same
      exact Bool.eq_false_iff.2 fails

/-- What is left fails the test too, if whatever is not greater than a failing entry does. -/
theorem Drains.failed [Std.TransCmp cmp] {test : α → Bool} {taken : List α} {rest : Heap α}
    (drains : Drains cmp test heap taken rest)
    (downward : ∀ one other, (cmp one other).isGE = true → test one = false →
      test other = false) : ∀ entry ∈ rest.toList, test entry = false := by
  intro entry member
  have ordered := drains.ordered
  have stopped := drains.stopped
  cases rest with
  | empty => cases member
  | node top left right =>
      exact downward top entry (ordered.top entry member) (stopped top rfl)

end EmbeddedHttp.Heap
