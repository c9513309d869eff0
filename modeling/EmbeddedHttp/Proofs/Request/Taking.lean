/-
# EmbeddedHttp.Proofs.Request.Taking -- requests are taken in order of arrival

A connection reads into an intake and takes requests from the front of its queue.
`Intake.Reads` ties both to what was heard: the taken requests and those still queued
are the requests that arrived.  Reading, closing, taking a request and telling the first
one to go on all keep it.
-/
import EmbeddedHttp.Proofs.Request.Expectation

namespace EmbeddedHttp

set_option autoImplicit false

namespace Intake

/-! ## The first request -/

theorem items_push {request : Request} {rest : List Request} {front : RequestQueue}
    {last : Request} (items : (front.push last).items = request :: rest) :
    front.items = [] ∧ last = request ∧ rest = [] ∨
      ∃ between, front.items = request :: between ∧ rest = between ++ [last] := by
  obtain ⟨before⟩ := front
  cases before with
  | nil =>
      obtain ⟨rfl, rfl⟩ := List.cons.inj items
      exact .inl ⟨rfl, rfl, rfl⟩
  | cons head between =>
      obtain ⟨rfl, rfl⟩ := List.cons.inj items
      exact .inr ⟨between, rfl, rfl⟩

/-- Without its first request, which was ready, a queue is open at its end as before. -/
theorem LastOpen.tail {queue : RequestQueue} {request : Request} {rest : List Request}
    (isOpen : LastOpen queue) (items : queue.items = request :: rest)
    (ready : request.isReady = true) : LastOpen ⟨rest⟩ := by
  obtain ⟨front, last, rfl, all, unready⟩ := isOpen
  rcases items_push items with ⟨-, rfl, -⟩ | ⟨between, before, rfl⟩
  · rw [ready] at unready
    cases unready
  · refine ⟨⟨between⟩, last, rfl, fun other member => all other ?_, unready⟩
    rw [before]
    exact List.mem_cons_of_mem _ member

/-- A queue in which the first request was told to go on is open at its end as before. -/
theorem LastOpen.settleFirst {queue : RequestQueue} {request : Request} {rest : List Request}
    (isOpen : LastOpen queue) (items : queue.items = request :: rest) :
    LastOpen ⟨request.settled :: rest⟩ := by
  obtain ⟨front, last, rfl, all, unready⟩ := isOpen
  rcases items_push items with ⟨-, rfl, rfl⟩ | ⟨between, before, rfl⟩
  · exact ⟨RequestQueue.empty, last.settled, rfl, fun _ member => (by cases member), unready⟩
  · refine ⟨⟨request.settled :: between⟩, last, rfl, fun other member => ?_, unready⟩
    rcases List.mem_cons.1 member with rfl | inside
    · exact all request (by rw [before]; exact List.mem_cons_self)
    · exact all other (by rw [before]; exact List.mem_cons_of_mem _ inside)

theorem AllReady.settleFirst {queue : RequestQueue} {request : Request} {rest : List Request}
    (all : AllReady queue) (items : queue.items = request :: rest) :
    AllReady ⟨request.settled :: rest⟩ := by
  intro other member
  rcases List.mem_cons.1 member with rfl | inside
  · exact all request (by rw [items]; exact List.mem_cons_self)
  · exact all other (by rw [items]; exact List.mem_cons_of_mem _ inside)

theorem InStep.tail {intake : Intake} {request : Request} {rest : List Request}
    (inStep : intake.InStep) (items : intake.queue.items = request :: rest)
    (ready : request.isReady = true) : InStep ⟨intake.parser, ⟨rest⟩⟩ := by
  obtain ⟨parser, queue⟩ := intake
  have all : AllReady queue → AllReady ⟨rest⟩ := fun all other member =>
    all other (by rw [items]; exact List.mem_cons_of_mem _ member)
  cases parser with
  | idle | upgraded | failed => exact all inStep
  | head _ _ | body _ | chunked _ => exact LastOpen.tail inStep items ready

theorem InStep.settleFirst {intake : Intake} {request : Request} {rest : List Request}
    (inStep : intake.InStep) (items : intake.queue.items = request :: rest) :
    InStep ⟨intake.parser, ⟨request.settled :: rest⟩⟩ := by
  obtain ⟨parser, queue⟩ := intake
  cases parser with
  | idle | upgraded | failed => exact AllReady.settleFirst inStep items
  | head _ _ | body _ | chunked _ => exact LastOpen.settleFirst inStep items

theorem InStep.frontReady {intake : Intake} (inStep : intake.InStep) :
    FrontReady intake.queue := by
  obtain ⟨parser, queue⟩ := intake
  have ofOpen : LastOpen queue → FrontReady queue := by
    rintro ⟨front, last, rfl, all, -⟩
    exact frontReady_push.2 all
  cases parser with
  | idle | upgraded | failed => exact AllReady.frontReady inStep
  | head _ _ | body _ | chunked _ => exact ofOpen inStep

/-- While the first request is not ready it is the one being received. -/
theorem InStep.unready {intake : Intake} {request : Request} {rest : List Request}
    (inStep : intake.InStep) (items : intake.queue.items = request :: rest)
    (unready : request.isReady = false) : rest = [] ∧ intake.parser.isIdle = false := by
  obtain ⟨parser, queue⟩ := intake
  have notAll : ¬ AllReady queue := by
    intro all
    have ready := all request (by rw [items]; exact List.mem_cons_self)
    rw [unready] at ready
    cases ready
  have alone : LastOpen queue → rest = [] := by
    rintro ⟨front, last, rfl, all, -⟩
    rcases items_push items with ⟨-, -, none⟩ | ⟨between, before, -⟩
    · exact none
    · have ready := all request (by rw [before]; exact List.mem_cons_self)
      rw [unready] at ready
      cases ready
  cases parser with
  | idle | upgraded | failed => exact absurd inStep notAll
  | head _ _ | body _ | chunked _ => exact ⟨alone inStep, rfl⟩

theorem HeadFresh.tail {intake : Intake} {request : Request} {rest : List Request}
    (fresh : intake.HeadFresh) (items : intake.queue.items = request :: rest) :
    HeadFresh ⟨intake.parser, ⟨rest⟩⟩ := by
  intro inside last isLast
  refine fresh inside last ?_
  rw [items, List.getLast?_cons, isLast]
  rfl

theorem HeadFresh.settleFirst {intake : Intake} {request : Request} {rest : List Request}
    (fresh : intake.HeadFresh) (items : intake.queue.items = request :: rest) :
    HeadFresh ⟨intake.parser, ⟨request.settled :: rest⟩⟩ := by
  intro inside last isLast
  cases rest with
  | nil =>
      cases isLast
      rfl
  | cons second others =>
      refine fresh inside last ?_
      rw [items]
      simpa [List.getLast?_cons_cons] using isLast

/-! ## Taken and heard -/

/-- `taken` was taken from the front of the requests that were heard, up to interim
answers, and the intake holds the others; `closed` tells whether no more is read. -/
structure Reads (limits : Limits) (heard : List Received) (taken : List Request)
    (intake : Intake) (closed : Bool) : Prop where
  behind : RequestQueue.Behind taken (hearAll limits heard).queue intake.queue
  parser : (hearAll limits heard).parser = intake.parser
  ready : ∀ request ∈ taken, request.isReady = true
  front : FrontReady intake.queue
  reading : closed = false →
    intake.InStep ∧ intake.parser ≠ .upgraded ∧ intake.HeadFresh

namespace Reads

variable {limits : Limits} {heard : List Received} {taken : List Request} {intake : Intake}
  {closed : Bool}

theorem opened (limits : Limits) : Reads limits [] [] Intake.empty false where
  behind := rfl
  parser := rfl
  ready _ member := by cases member
  front _ member := by cases member
  reading _ := ⟨fun _ member => (by cases member), by decide, fun inside => (by cases inside)⟩

/-- What was taken arrived first. -/
theorem takenFirst (reads : Reads limits heard taken intake closed) :
    taken <+: (hearAll limits heard).queue.items.map Request.settled :=
  ⟨intake.queue.items.map Request.settled, reads.behind.symm⟩

/-- Octets that are read. -/
theorem feed (reads : Reads limits heard taken intake false) (b : UInt8) (rest : Bytes)
    (stopped : Bool)
    (stops : (intake.feed limits (b :: rest)).intake.parser.isUpgraded = true → stopped = true) :
    Reads limits (heard ++ [.data (b :: rest)]) taken (intake.feed limits (b :: rest)).intake
      stopped := by
  obtain ⟨inStep, plain, fresh⟩ := reads.reading rfl
  obtain ⟨-, parser, behind⟩ :=
    feed_behind limits reads.behind reads.parser reads.ready inStep plain (b :: rest)
  have after := feed_inStep limits inStep (b :: rest)
  refine ⟨?_, ?_, reads.ready, after.frontReady, fun goesOn => ⟨after, fun upgraded => ?_,
    feed_headFresh limits fresh _⟩⟩
  · rw [hearAll_append]
    exact behind
  · rw [hearAll_append]
    exact parser
  · have stop := stops (by rw [upgraded]; rfl)
    rw [goesOn] at stop
    cases stop

/-- Reading that gave nothing more. -/
theorem lapse (reads : Reads limits heard taken intake false) (received : Received)
    (nothing : ∀ b rest, received ≠ .data (b :: rest)) :
    Reads limits (heard ++ [received]) taken (intake.cutShort (Intake.lapse received)) true := by
  obtain ⟨inStep, -, -⟩ := reads.reading rfl
  have hears : hear limits (hearAll limits heard) received =
      (hearAll limits heard).cutShort (Intake.lapse received) := by
    cases received with
    | data bytes =>
        cases bytes with
        | nil => rfl
        | cons b rest => exact absurd rfl (nothing b rest)
    | _ => rfl
  -- cutting short records an error at most: the parser stays where it is
  have parser : ∀ (other : Intake) (status : Status),
      (other.cutShort status).parser = other.parser := by
    intro other status
    rw [cutShort]
    split <;> rfl
  refine ⟨?_, ?_, reads.ready, ?_, fun goesOn => by cases goesOn⟩
  · rw [hearAll_append, hears, cutShort, cutShort, reads.parser]
    split
    · exact reads.behind
    · exact reads.behind.recordFailure reads.ready _
  · rw [hearAll_append, hears, parser, parser, reads.parser]
  · rcases cutShort_inStep inStep (Intake.lapse received) with ⟨-, same⟩ | all
    · rw [same]
      exact inStep.frontReady
    · exact all.frontReady

/-- The first request is taken. -/
theorem take (reads : Reads limits heard taken intake closed) {request : Request}
    {rest : List Request} (items : intake.queue.items = request :: rest)
    (ready : request.isReady = true) :
    Reads limits heard (taken ++ [request.settled]) ⟨intake.parser, ⟨rest⟩⟩ closed where
  behind := by
    have behind := reads.behind
    rw [RequestQueue.Behind, items] at behind
    rw [RequestQueue.Behind, behind]
    simp
  parser := reads.parser
  ready := by
    intro other member
    rcases List.mem_append.1 member with before | last
    · exact reads.ready other before
    · rw [List.mem_singleton.1 last]
      exact ready
  front := by
    intro other member
    cases rest with
    | nil => cases member
    | cons second others =>
        refine reads.front other ?_
        rw [items]
        exact List.mem_cons_of_mem _ member
  reading goesOn :=
    have ⟨inStep, plain, fresh⟩ := reads.reading goesOn
    ⟨inStep.tail items ready, plain, fresh.tail items⟩

/-- The first request, which is not ready, was told to go on. -/
theorem settleFirst (reads : Reads limits heard taken intake false) {request : Request}
    {rest : List Request} (items : intake.queue.items = request :: rest) :
    Reads limits heard taken ⟨intake.parser, ⟨request.settled :: rest⟩⟩ false := by
  obtain ⟨inStep, plain, fresh⟩ := reads.reading rfl
  have after := inStep.settleFirst items
  refine ⟨?_, reads.parser, reads.ready, after.frontReady, fun _ =>
    ⟨after, plain, fresh.settleFirst items⟩⟩
  have behind := reads.behind
  rw [RequestQueue.Behind, items] at behind
  rw [RequestQueue.Behind, behind]
  rfl

/-- A first request that waits for an interim answer is told to go on only once. -/
theorem firstTold (reads : Reads limits heard taken intake false) {request : Request}
    {rest : List Request} (items : intake.queue.items = request :: rest)
    (unready : request.isReady = false) (waits : request.expectContinue = true) :
    FirstTold ⟨intake.parser, ⟨request.settled :: rest⟩⟩ := by
  obtain ⟨inStep, -, fresh⟩ := reads.reading rfl
  obtain ⟨rfl, -⟩ := inStep.unready items unready
  refine ⟨request.settled, [], rfl, rfl, fun _ => ?_⟩
  cases inside : intake.parser.inHead with
  | false => rfl
  | true =>
      have asked := fresh inside request (by rw [items]; rfl)
      rw [waits] at asked
      cases asked

end Reads

end Intake

end EmbeddedHttp
