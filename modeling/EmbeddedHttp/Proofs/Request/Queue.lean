/-
# EmbeddedHttp.Proofs.Request.Queue -- the end of a queue

Events concern the request that began last, and so does an error.  A queue is empty or
a shorter one with a request behind it (`RequestQueue.empty_or_push`), and on the latter
form everything that happens at its end is told.
-/
import EmbeddedHttp.Request.Assembly

namespace EmbeddedHttp

set_option autoImplicit false

namespace RequestQueue

@[simp] theorem getLast?_push (queue : RequestQueue) (request : Request) :
    (queue.push request).items.getLast? = some request := by
  simp [push]

@[simp] theorem setLast_push (queue : RequestQueue) (request next : Request) :
    (queue.push request).setLast next = queue.push next := by
  simp [push, setLast]

theorem push_of_getLast? {queue : RequestQueue} {last : Request}
    (isLast : queue.items.getLast? = some last) :
    ∃ front : RequestQueue, queue = front.push last := by
  obtain ⟨items⟩ := queue
  obtain ⟨front, rfl⟩ := List.getLast?_eq_some_iff.1 isLast
  exact ⟨⟨front⟩, rfl⟩

theorem empty_or_push (queue : RequestQueue) :
    queue.items = [] ∨ ∃ (front : RequestQueue) (last : Request), queue = front.push last := by
  cases found : queue.items.getLast? with
  | none => exact .inl (List.getLast?_eq_none_iff.1 found)
  | some last =>
      obtain ⟨front, same⟩ := push_of_getLast? found
      exact .inr ⟨front, last, same⟩

/-- A request is found in front, or it is the last one. -/
theorem getElem?_push_iff {queue : RequestQueue} {last request : Request} {i : Nat} :
    (queue.push last).items[i]? = some request ↔
      queue.items[i]? = some request ∨ i = queue.items.length ∧ last = request := by
  have pushed : (queue.push last).items = queue.items ++ [last] := rfl
  rw [pushed]
  constructor
  · intro found
    by_cases inside : i < queue.items.length
    · rw [List.getElem?_append_left inside] at found
      exact .inl found
    · have bound := (List.getElem?_eq_some_iff.1 found).1
      have atEnd : i = queue.items.length := by
        simp only [List.length_append, List.length_singleton] at bound
        omega
      rw [atEnd, List.getElem?_concat_length] at found
      exact .inr ⟨atEnd, Option.some.inj found⟩
  · rintro (found | ⟨rfl, rfl⟩)
    · rw [List.getElem?_append_left (List.getElem?_eq_some_iff.1 found).1, found]
    · exact List.getElem?_concat_length

/-- The last request stands behind those in front. -/
theorem getElem?_push_last (queue : RequestQueue) (last : Request) :
    (queue.push last).items[queue.items.length]? = some last :=
  getElem?_push_iff.2 (.inr ⟨rfl, rfl⟩)

/-- An error is recorded on the last request while it is not ready, and otherwise behind
it. -/
theorem recordFailure_push (queue : RequestQueue) (last : Request) (status : Status) :
    (queue.push last).recordFailure status =
      if last.isReady then (queue.push last).push (Request.new.fail status)
      else queue.push (last.fail status) := by
  cases ready : last.isReady <;> simp [recordFailure, inProgress?, Option.filter, ready]

/-- A request that is ready stays as it is when an error is recorded; another one at most gets
the error. -/
theorem recordFailure_finds {queue : RequestQueue} {i : Nat} {request : Request}
    (found : queue.items[i]? = some request) (status : Status) :
    (queue.recordFailure status).items[i]? = some request ∨
      request.isReady = false ∧
        (queue.recordFailure status).items[i]? = some (request.fail status) := by
  rcases queue.empty_or_push with empty | ⟨front, last, rfl⟩
  · rw [empty] at found
    cases found
  rw [recordFailure_push]
  split
  · exact .inl (getElem?_push_iff.2 (.inl found))
  · rename_i unready
    rcases getElem?_push_iff.1 found with inside | ⟨rfl, rfl⟩
    · exact .inl (getElem?_push_iff.2 (.inl inside))
    · exact .inr ⟨Bool.eq_false_iff.2 unready, getElem?_push_last front _⟩

end RequestQueue

namespace Assembly

/-- A change concerns the request that began last. -/
theorem changeLast_push (change : Request → Change) (queue : RequestQueue) (request : Request) :
    changeLast change (queue.push request) =
      ((change request).1, queue.push (change request).2) := by
  simp [changeLast]

end Assembly

end EmbeddedHttp
