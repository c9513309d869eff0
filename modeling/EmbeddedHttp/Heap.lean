/-
# EmbeddedHttp.Heap -- a heap from which the greatest entry is taken

A tree in which no entry stands above a greater one.  What is greater is said by a
comparison that the operations are given.  Only the top of a heap is known to be
greatest; the entries below it are in no order.
-/
namespace EmbeddedHttp

set_option autoImplicit false

/-- Entries with one of the greatest at the top. -/
inductive Heap (α : Type) where
  | empty
  | node (top : α) (left right : Heap α)

namespace Heap

variable {α : Type}

/-- The number of entries. -/
def size : Heap α → Nat
  | empty => 0
  | node _ left right => left.size + right.size + 1

/-- The entry at the top. -/
def peek? : Heap α → Option α
  | empty => none
  | node top _ _ => some top

/-- The entries of two heaps in one.  The halves change places on the way down, which
keeps the tree from growing deep on one side. -/
def merge (cmp : α → α → Ordering) : Heap α → Heap α → Heap α
  | empty, other => other
  | node a left right, empty => node a left right
  | node a left right, node b left' right' =>
      if cmp a b = .lt then node b (merge cmp (node a left right) right') left'
      else node a (merge cmp right (node b left' right')) left
  termination_by first second => first.size + second.size
  decreasing_by all_goals simp only [size]; omega

/-- Add an entry. -/
def push (cmp : α → α → Ordering) (entry : α) (heap : Heap α) : Heap α :=
  merge cmp (node entry empty empty) heap

theorem size_merge (cmp : α → α → Ordering) (first second : Heap α) :
    (merge cmp first second).size = first.size + second.size := by
  fun_induction merge cmp first second with
  | case1 other => simp only [size]; omega
  | case2 a left right => rfl
  | case3 a left right b left' right' less ih => simp only [size] at ih ⊢; omega
  | case4 a left right b left' right' greater ih => simp only [size] at ih ⊢; omega

/-- Take the greatest entry out, again and again while it passes a test: what was taken,
in order, and the heap that is left. -/
def drainWhile (cmp : α → α → Ordering) (test : α → Bool) : Heap α → List α × Heap α
  | empty => ([], empty)
  | node top left right =>
      if test top then
        let further := drainWhile cmp test (merge cmp left right)
        (top :: further.1, further.2)
      else ([], node top left right)
  termination_by heap => heap.size
  decreasing_by simp only [size_merge, size]; omega

end Heap

end EmbeddedHttp
