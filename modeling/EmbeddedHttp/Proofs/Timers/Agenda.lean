/-
# EmbeddedHttp.Proofs.Timers.Agenda -- a timer queue is a sorted list to its users

An `Agenda` is what a timer queue is meant to be: the list of what is waiting, sorted by
deadline and then by the order of the pushes.  Nothing about it is lazy.  What is cancelled
leaves it at once, and what is due leaves it when it is asked for.

`TimerQueue.answers_of_sorted_list`: whatever is done with a queue, in whatever order, it
answers as the agenda does.  So the heap, its reversed comparison and the cancelled entries
that still lie in it are not seen by its users.  The agenda in turn is accounted for by what
was done (`Agenda.Accounted`): it holds what was pushed and has not left, and nothing leaves
twice.
-/
import EmbeddedHttp.Proofs.Timers.Holding
import Mathlib.Data.List.Induction

namespace EmbeddedHttp

set_option autoImplicit false

variable {α : Type}

/-! ## What is done with timers -/

/-- Something done with timers. -/
inductive TimerOperation (α : Type) where
  | push (deadline : Nat) (action : α)
  | cancel (ticket : Ticket)
  | isActive (ticket : Ticket)
  | popExpired (now : Nat)
  | nextDeadline

/-- What is answered. -/
inductive TimerAnswer (α : Type) where
  | ticket (drawn : Ticket)
  | flag (holds : Bool)
  | actions (fired : List α)
  | deadline (first : Option Nat)

/-- The deadline and the action that are pushed. -/
def TimerOperation.pushed? : TimerOperation α → Option (Nat × α)
  | .push deadline action => some (deadline, action)
  | _ => none

/-- The actions that are returned. -/
def TimerAnswer.returned : TimerAnswer α → List α
  | .actions fired => fired
  | _ => []

/-- Do one thing after the other: the answers, and the state at the end. -/
def performAll {σ : Type} (perform : σ → TimerOperation α → TimerAnswer α × σ) (state : σ) :
    List (TimerOperation α) → List (TimerAnswer α) × σ
  | [] => ([], state)
  | operation :: rest =>
      let one := perform state operation
      let others := performAll perform one.2 rest
      (one.1 :: others.1, others.2)

theorem performAll_concat {σ : Type} (perform : σ → TimerOperation α → TimerAnswer α × σ)
    (operations : List (TimerOperation α)) (operation : TimerOperation α) (state : σ) :
    let before := performAll perform state operations
    performAll perform state (operations ++ [operation]) =
      (before.1 ++ [(perform before.2 operation).1], (perform before.2 operation).2) := by
  induction operations generalizing state with
  | nil => rfl
  | cons first rest ih => simp only [List.cons_append, performAll, ih]

/-- Do something with a timer queue. -/
def TimerQueue.perform (queue : TimerQueue α) : TimerOperation α → TimerAnswer α × TimerQueue α
  | .push deadline action => ((queue.push deadline action).map .ticket id)
  | .cancel ticket => (queue.cancel ticket).map .flag id
  | .isActive ticket => (.flag (queue.isActive ticket), queue)
  | .popExpired now => (queue.popExpired now).map .actions id
  | .nextDeadline => queue.nextDeadline.map .deadline id

/-! ## The sorted list -/

/-- What is waiting for its deadline. -/
structure Due (α : Type) where
  deadline : Nat
  ticket : Ticket
  action : α

/-- One is due before another, or at the same instant and was pushed first. -/
def Due.Before (one other : Due α) : Prop :=
  one.deadline < other.deadline ∨ one.deadline = other.deadline ∧ one.ticket < other.ticket

/-- What is waiting, in order, and what was pushed, fired and cancelled so far. -/
structure Agenda (α : Type) where
  items : List (Due α)
  pushed : List (Nat × α)
  fired : List Ticket
  cancelled : List Ticket

namespace Agenda

/-- Nothing was pushed. -/
def blank : Agenda α := ⟨[], [], [], []⟩

/-- Is something waiting under a ticket? -/
def awaits (agenda : Agenda α) (ticket : Ticket) : Bool :=
  agenda.items.any (·.ticket == ticket)

/-- Do something with an agenda.  What is pushed goes behind everything that is due no
later. -/
def perform (agenda : Agenda α) : TimerOperation α → TimerAnswer α × Agenda α
  | .push deadline action =>
      let ticket := agenda.pushed.length
      (.ticket ticket,
        { agenda with
          items := agenda.items.orderedInsert (fun one other => one.deadline < other.deadline)
            ⟨deadline, ticket, action⟩
          pushed := agenda.pushed ++ [(deadline, action)] })
  | .cancel ticket =>
      (.flag (agenda.awaits ticket),
        { agenda with
          items := agenda.items.filter (·.ticket != ticket)
          cancelled := agenda.cancelled ++
            (agenda.items.filter (·.ticket == ticket)).map (·.ticket) })
  | .isActive ticket => (.flag (agenda.awaits ticket), agenda)
  | .popExpired now =>
      let due := agenda.items.filter (·.deadline ≤ now)
      (.actions (due.map (·.action)),
        { agenda with
          items := agenda.items.filter (now < ·.deadline)
          fired := agenda.fired ++ due.map (·.ticket) })
  | .nextDeadline => (.deadline (agenda.items.map (·.deadline)).min?, agenda)

/-! ## Nothing is lost and nothing leaves twice -/

/-- What is waiting was pushed and has not left; nothing has left twice. -/
structure Accounted (agenda : Agenda α) : Prop where
  waiting : ∀ item, item ∈ agenda.items ↔
    agenda.pushed[item.ticket]? = some (item.deadline, item.action) ∧
      item.ticket ∉ agenda.fired ++ agenda.cancelled
  gone : ∀ ticket ∈ agenda.fired ++ agenda.cancelled, ticket < agenda.pushed.length
  tickets : (agenda.items.map (·.ticket)).Nodup
  once : (agenda.fired ++ agenda.cancelled).Nodup

namespace Accounted

variable {agenda : Agenda α}

theorem pushedAt (accounted : agenda.Accounted) {item : Due α} (member : item ∈ agenda.items) :
    agenda.pushed[item.ticket]? = some (item.deadline, item.action) :=
  ((accounted.waiting item).1 member).1

theorem lt (accounted : agenda.Accounted) {item : Due α} (member : item ∈ agenda.items) :
    item.ticket < agenda.pushed.length :=
  (List.getElem?_eq_some_iff.1 (accounted.pushedAt member)).1

/-- A ticket stands for one item only. -/
theorem unique (accounted : agenda.Accounted) {one other : Due α} (first : one ∈ agenda.items)
    (second : other ∈ agenda.items) (same : one.ticket = other.ticket) : one = other :=
  List.inj_on_of_nodup_map accounted.tickets first second same

/-- Some of what is waiting leaves. -/
theorem leave (accounted : agenda.Accounted) (leaves : Due α → Bool) {after : Agenda α}
    (items : after.items = agenda.items.filter (!leaves ·)) (pushed : after.pushed = agenda.pushed)
    (gone : (after.fired ++ after.cancelled).Perm (agenda.fired ++ agenda.cancelled ++
      (agenda.items.filter leaves).map (·.ticket))) : after.Accounted := by
  have leaving : ∀ ticket, ticket ∈ (agenda.items.filter leaves).map (·.ticket) ↔
      ∃ item ∈ agenda.items, leaves item = true ∧ item.ticket = ticket := by
    intro ticket
    simp only [List.mem_map, List.mem_filter, and_assoc]
  refine ⟨fun item => ?_, fun ticket member => ?_, ?_, ?_⟩
  · rw [items, pushed, gone.mem_iff, List.mem_append, List.mem_filter, leaving,
      accounted.waiting]
    constructor
    · rintro ⟨⟨pushedAt, notGone⟩, stays⟩
      refine ⟨pushedAt, ?_⟩
      rintro (isGone | ⟨other, member, otherLeaves, same⟩)
      · exact notGone isGone
      · have equal := accounted.unique member
          ((accounted.waiting item).2 ⟨pushedAt, notGone⟩) same
        rw [equal] at otherLeaves
        simp [otherLeaves] at stays
    · rintro ⟨pushedAt, notGone⟩
      have held : agenda.pushed[item.ticket]? = some (item.deadline, item.action) ∧
          item.ticket ∉ agenda.fired ++ agenda.cancelled :=
        ⟨pushedAt, fun isGone => notGone (.inl isGone)⟩
      refine ⟨held, ?_⟩
      by_cases isLeaving : leaves item = true
      · exact absurd (.inr ⟨item, (accounted.waiting item).2 held, isLeaving, rfl⟩) notGone
      · simpa using isLeaving
  · rw [pushed]
    rcases List.mem_append.1 (gone.mem_iff.1 member) with before | now
    · exact accounted.gone ticket before
    · obtain ⟨item, held, -, rfl⟩ := (leaving ticket).1 now
      exact accounted.lt held
  · rw [items]
    exact accounted.tickets.sublist (List.filter_sublist.map _)
  · refine gone.nodup_iff.2 (List.nodup_append.2 ⟨accounted.once, ?_, ?_⟩)
    · exact accounted.tickets.sublist (List.filter_sublist.map _)
    · rintro ticket isGone _ isLeaving rfl
      obtain ⟨item, held, -, rfl⟩ := (leaving ticket).1 isLeaving
      exact ((accounted.waiting item).1 held).2 isGone

/-- Something is pushed. -/
theorem push (accounted : agenda.Accounted) (deadline : Nat) (action : α) :
    (agenda.perform (.push deadline action)).2.Accounted := by
  let entry : Due α := ⟨deadline, agenda.pushed.length, action⟩
  have items : (agenda.perform (.push deadline action)).2.items.Perm (entry :: agenda.items) :=
    List.perm_orderedInsert _ entry agenda.items
  have notGone : entry.ticket ∉ agenda.fired ++ agenda.cancelled := fun isGone =>
    (accounted.gone _ isGone).ne rfl
  have length : (agenda.perform (.push deadline action)).2.pushed.length =
      agenda.pushed.length + 1 := List.length_append
  refine ⟨fun item => ?_, fun ticket isGone => ?_, ?_, accounted.once⟩
  · rw [items.mem_iff, List.mem_cons, accounted.waiting]
    show item = entry ∨ _ ↔ (agenda.pushed ++ [(deadline, action)])[item.ticket]? = _ ∧ _
    constructor
    · rintro (rfl | ⟨pushedAt, waits⟩)
      · exact ⟨List.getElem?_concat_length, notGone⟩
      · have within := (List.getElem?_eq_some_iff.1 pushedAt).1
        exact ⟨(List.getElem?_append_left within).trans pushedAt, waits⟩
    · rintro ⟨pushedAt, waits⟩
      by_cases within : item.ticket < agenda.pushed.length
      · exact .inr ⟨(List.getElem?_append_left within).symm.trans pushedAt, waits⟩
      · -- only the new one has a ticket that high
        left
        have bound : item.ticket < agenda.pushed.length + 1 :=
          length ▸ (List.getElem?_eq_some_iff.1 pushedAt).1
        have ticket := Nat.eq_of_lt_succ_of_not_lt bound within
        rw [ticket, List.getElem?_concat_length, Option.some_inj, Prod.mk.injEq] at pushedAt
        obtain ⟨itemDeadline, itemTicket, itemAction⟩ := item
        obtain ⟨rfl, rfl⟩ := pushedAt
        exact congrArg (Due.mk deadline · action) ticket
  · rw [length]
    exact Nat.lt_succ_of_lt (accounted.gone ticket isGone)
  · refine (items.map _).nodup_iff.2 (List.nodup_cons.2 ⟨fun old => ?_, accounted.tickets⟩)
    obtain ⟨other, member, same⟩ := List.mem_map.1 old
    exact (accounted.lt member).ne same

theorem perform (accounted : agenda.Accounted) (operation : TimerOperation α) :
    (agenda.perform operation).2.Accounted := by
  cases operation with
  | push deadline action => exact accounted.push deadline action
  | cancel ticket =>
      refine accounted.leave (·.ticket == ticket) rfl rfl (.of_eq ?_)
      rw [List.append_assoc]
      rfl
  | isActive ticket => exact accounted
  | popExpired now =>
      refine accounted.leave (·.deadline ≤ now) ?_ rfl ?_
      · show agenda.items.filter _ = _
        exact List.filter_congr fun item _ => by rw [← decide_not, decide_eq_decide, not_le]
      · show List.Perm (_ ++ _ ++ _) _
        rw [List.append_assoc, List.append_assoc]
        exact .append_left _ List.perm_append_comm
  | nextDeadline => exact accounted

end Accounted

/-- What is fired is returned. -/
theorem perform_returned (agenda : Agenda α) (operation : TimerOperation α) :
    ∃ due : List (Due α), (∀ item ∈ due, item ∈ agenda.items) ∧
      (agenda.perform operation).1.returned = due.map (·.action) ∧
      (agenda.perform operation).2.fired = agenda.fired ++ due.map (·.ticket) := by
  cases operation with
  | popExpired now =>
      refine ⟨agenda.items.filter (·.deadline ≤ now), fun item member => ?_, rfl, rfl⟩
      exact (List.mem_filter.1 member).1
  | _ => exact ⟨[], List.forall_mem_nil _, rfl, (List.append_nil _).symm⟩

theorem perform_pushed (agenda : Agenda α) (operation : TimerOperation α) :
    (agenda.perform operation).2.pushed = agenda.pushed ++ operation.pushed?.toList := by
  cases operation with
  | push deadline action => rfl
  | _ => exact (List.append_nil _).symm

theorem blank_accounted : (blank : Agenda α).Accounted where
  waiting item := by simp [blank]
  gone _ member := by cases member
  tickets := .nil
  once := .nil

/-- **An agenda is accounted for by what was done.**  What was fired, all in all, is what was
returned. -/
theorem performAll_accounted (operations : List (TimerOperation α)) :
    let done := performAll perform (blank : Agenda α) operations
    done.2.Accounted ∧ done.2.pushed = operations.filterMap TimerOperation.pushed? ∧
      (done.1.flatMap TimerAnswer.returned).map some =
        done.2.fired.map fun ticket => (done.2.pushed[ticket]?).map Prod.snd := by
  induction operations using List.reverseRecOn with
  | nil => exact ⟨blank_accounted, rfl, rfl⟩
  | append_singleton before operation ih =>
      rw [performAll_concat]
      generalize performAll perform (blank : Agenda α) before = done at ih ⊢
      obtain ⟨answers, agenda⟩ := done
      obtain ⟨accounted, pushed, returned⟩ := ih
      dsimp only at accounted pushed returned ⊢
      refine ⟨accounted.perform operation, ?_, ?_⟩
      · rw [perform_pushed, pushed, List.filterMap_append]
        cases operation <;> rfl
      · obtain ⟨due, held, nowReturned, nowFired⟩ := perform_returned agenda operation
        -- the pushes before stay where they are
        have stays : ∀ ticket < agenda.pushed.length,
            (agenda.perform operation).2.pushed[ticket]? = agenda.pushed[ticket]? := by
          intro ticket within
          rw [perform_pushed, List.getElem?_append_left within]
        rw [List.flatMap_append, List.map_append, returned, nowFired, List.map_append]
        congr 1
        · refine List.map_congr_left fun ticket member => ?_
          rw [stays ticket (accounted.gone ticket (List.mem_append_left _ member))]
        · rw [List.flatMap_singleton, nowReturned, List.map_map, List.map_map]
          refine List.map_congr_left fun item member => ?_
          rw [Function.comp, Function.comp, stays _ (accounted.lt (held item member)),
            accounted.pushedAt (held item member)]
          rfl

end Agenda

/-! ## The queue follows the agenda -/

/-- What waits in an agenda under an entry. -/
def TimerEntry.due (entry : TimerEntry α) : Due α :=
  ⟨entry.deadline, entry.ticket, entry.action⟩

namespace TimerQueue

/-- The queue holds what waits in the agenda.  Every ticket was drawn for a push, so that an
entry was scheduled as the one that its ticket counts. -/
structure Follows (queue : TimerQueue α) (agenda : Agenda α) (live : List (TimerEntry α)) :
    Prop where
  holds : queue.Holds live
  items : agenda.items = live.map TimerEntry.due
  ranks : ∀ entry ∈ live, entry.seq = entry.ticket
  active : ∀ ticket, queue.isActive ticket = true → ∃ entry ∈ live, entry.ticket = ticket
  drawn : agenda.pushed.length = queue.fates.length
  scheduled : queue.nextSeq = queue.fates.length

namespace Follows

variable {queue : TimerQueue α} {agenda : Agenda α} {live : List (TimerEntry α)}

theorem isActive_eq (follows : queue.Follows agenda live) (ticket : Ticket) :
    queue.isActive ticket = agenda.awaits ticket := by
  rw [Bool.eq_iff_iff, Agenda.awaits, follows.items, List.any_map, List.any_eq_true]
  constructor
  · intro active
    obtain ⟨entry, member, same⟩ := follows.active ticket active
    exact ⟨entry, member, beq_iff_eq.2 same⟩
  · rintro ⟨entry, member, same⟩
    rw [← beq_iff_eq.1 same]
    exact ((follows.holds.mem_iff entry).1 member).2

/-- The items of an agenda are sorted: by deadline, and then by the order of the pushes. -/
theorem sorted (follows : queue.Follows agenda live) : agenda.items.Pairwise Due.Before := by
  rw [follows.items, List.pairwise_map]
  refine follows.holds.inOrder.imp_of_mem fun {one other} first second before => ?_
  rwa [TimerEntry.Before, follows.ranks one first, follows.ranks other second] at before

theorem push (follows : queue.Follows agenda live) (deadline : Nat) (action : α) :
    (queue.push deadline action).2.Follows (agenda.perform (.push deadline action)).2
      (insertBehind ⟨deadline, queue.nextSeq, queue.fates.length, action⟩ live) := by
  let entry : TimerEntry α := ⟨deadline, queue.nextSeq, queue.fates.length, action⟩
  have within : queue.fates.length < queue.draw.2.fates.length := by
    show _ < (queue.fates ++ [Fate.pending]).length
    simp
  have fresh : queue.fates.length ∉ queue.heap.toList.map (·.ticket) := by
    intro old
    obtain ⟨other, member, same⟩ := List.mem_map.1 old
    exact (follows.holds.drawn other member).ne same
  have pending : queue.draw.2.isActive queue.fates.length = true :=
    isActive_iff.2 List.getElem?_concat_length
  have holds := follows.holds.draw.schedule deadline action within fresh
  rw [if_pos pending] at holds
  have members : ∀ other, other ∈ insertBehind entry live ↔ other = entry ∨ other ∈ live :=
    fun other => (insertBehind_perm entry live).mem_iff.trans List.mem_cons
  refine ⟨holds, ?_, fun other member => ?_, fun ticket active => ?_, ?_, ?_⟩
  · show agenda.items.orderedInsert _ _ = _
    rw [follows.items, follows.drawn]
    exact (List.map_orderedInsert _ _ TimerEntry.due live entry (fun _ _ => .rfl)
      fun _ _ => .rfl).symm
  · rcases (members other).1 member with rfl | old
    · exact follows.scheduled
    · exact follows.ranks other old
  · by_cases new : ticket = queue.fates.length
    · exact ⟨entry, (members entry).2 (.inl rfl), new.symm⟩
    · have before : queue.isActive ticket = true := by
        have either : queue.draw.2.isActive ticket = true := active
        rw [isActive_draw, Bool.or_eq_true, beq_iff_eq] at either
        exact either.resolve_right new
      obtain ⟨other, member, same⟩ := follows.active ticket before
      exact ⟨other, (members other).2 (.inr member), same⟩
  · show (agenda.pushed ++ _).length = (queue.fates ++ _).length
    simp [follows.drawn]
  · show queue.nextSeq + 1 = (queue.fates ++ _).length
    simp [follows.scheduled]

/-- Some of what is waiting leaves. -/
theorem leave (follows : queue.Follows agenda live) (stays : Due α → Bool)
    {queue' : TimerQueue α} {agenda' : Agenda α}
    (holds : queue'.Holds (live.filter fun entry => stays entry.due))
    (items : agenda'.items = agenda.items.filter stays)
    (active : ∀ ticket, queue'.isActive ticket = true → queue.isActive ticket = true ∧
      ∀ entry ∈ live, entry.ticket = ticket → stays entry.due = true)
    (drawn : agenda'.pushed.length = queue'.fates.length)
    (scheduled : queue'.nextSeq = queue'.fates.length) :
    queue'.Follows agenda' (live.filter fun entry => stays entry.due) := by
  refine ⟨holds, ?_, fun entry member => ?_, fun ticket pending => ?_, drawn, scheduled⟩
  · rw [items, follows.items, List.filter_map]
    rfl
  · exact follows.ranks entry (List.mem_filter.1 member).1
  · obtain ⟨before, stay⟩ := active ticket pending
    obtain ⟨entry, member, same⟩ := follows.active ticket before
    exact ⟨entry, List.mem_filter.2 ⟨member, stay entry member same⟩, same⟩

theorem perform (follows : queue.Follows agenda live) (operation : TimerOperation α) :
    (queue.perform operation).1 = (agenda.perform operation).1 ∧
      ∃ live', (queue.perform operation).2.Follows (agenda.perform operation).2 live' := by
  cases operation with
  | push deadline action =>
      exact ⟨congrArg TimerAnswer.ticket follows.drawn.symm, _, follows.push deadline action⟩
  | cancel ticket =>
      obtain ⟨answer, -, nextSeq, drawn⟩ := queue.cancel_keeps ticket
      refine ⟨congrArg TimerAnswer.flag (answer.trans (follows.isActive_eq ticket)), _,
        follows.leave (·.ticket != ticket) (follows.holds.cancel ticket) rfl ?_
          (follows.drawn.trans drawn.symm) (nextSeq.trans (follows.scheduled.trans drawn.symm))⟩
      intro other active
      have both : (queue.cancel ticket).2.isActive other = true := active
      rw [isActive_cancel, Bool.and_eq_true, bne_iff_ne] at both
      exact ⟨both.1, fun entry _ same => bne_iff_ne.2 (same.trans_ne both.2)⟩
  | isActive ticket =>
      exact ⟨congrArg TimerAnswer.flag (follows.isActive_eq ticket), live, follows⟩
  | popExpired now =>
      obtain ⟨fired, holds, active⟩ := follows.holds.popExpired now
      have length : (queue.popExpired now).2.fates.length = queue.fates.length := length_fire _ _
      refine ⟨congrArg TimerAnswer.actions (fired.trans ?_), _,
        follows.leave (now < ·.deadline) holds rfl (fun ticket pending => ?_)
          (follows.drawn.trans length.symm) (follows.scheduled.trans length.symm)⟩
      · rw [follows.items, List.filter_map, List.map_map]
        rfl
      · obtain ⟨before, notDue⟩ := (active ticket).1 pending
        refine ⟨before, fun entry member same => decide_eq_true ?_⟩
        by_contra late
        exact notDue entry member (Nat.le_of_not_lt late) same
  | nextDeadline =>
      obtain ⟨first, holds⟩ := follows.holds.nextDeadline
      refine ⟨congrArg TimerAnswer.deadline (first.trans ?_), live,
        ⟨holds, follows.items, follows.ranks, follows.active, follows.drawn, follows.scheduled⟩⟩
      -- the least of what is sorted stands first
      have sorted : (agenda.items.map Due.deadline).Pairwise fun one other => min one other = one := by
        rw [List.pairwise_map]
        refine follows.sorted.imp fun before => ?_
        unfold Due.Before at before
        omega
      show _ = (agenda.items.map Due.deadline).min?
      rw [List.min?_eq_head? sorted, follows.items, List.head?_map, List.head?_map, Option.map_map]
      rfl

end Follows

theorem empty_follows : (empty : TimerQueue α).Follows .blank [] where
  holds := .empty
  items := rfl
  ranks := List.forall_mem_nil _
  active _ active := by cases active
  drawn := rfl
  scheduled := rfl

theorem performAll_follows (operations : List (TimerOperation α)) :
    (performAll perform empty operations).1 =
        (performAll Agenda.perform Agenda.blank operations).1 ∧
      ∃ live, (performAll perform empty operations).2.Follows
        (performAll Agenda.perform Agenda.blank operations).2 live := by
  induction operations using List.reverseRecOn with
  | nil => exact ⟨rfl, [], empty_follows⟩
  | append_singleton before operation ih =>
      obtain ⟨answers, live, follows⟩ := ih
      obtain ⟨answer, after⟩ := follows.perform operation
      rw [performAll_concat, performAll_concat]
      exact ⟨congrArg₂ (· ++ [·]) answers answer, after⟩

/-- **A timer queue answers as a sorted list would.**  Whatever is pushed, cancelled, asked
and popped, in any order and with any deadlines and instants, every answer is that of the
agenda.  There everything that waits is sorted by deadline and then by the order of the
pushes.  It is just what was pushed and has neither been fired nor cancelled, no ticket is
fired or cancelled twice or both, and the actions returned, all in all, are those of the
tickets that were fired. -/
theorem answers_of_sorted_list (operations : List (TimerOperation α)) :
    let done := performAll Agenda.perform (Agenda.blank : Agenda α) operations
    (performAll perform (empty : TimerQueue α) operations).1 = done.1 ∧
      done.2.items.Pairwise Due.Before ∧
      (∀ item, item ∈ done.2.items ↔
        (operations.filterMap TimerOperation.pushed?)[item.ticket]? =
            some (item.deadline, item.action) ∧
          item.ticket ∉ done.2.fired ++ done.2.cancelled) ∧
      (done.2.fired ++ done.2.cancelled).Nodup ∧
      (done.1.flatMap TimerAnswer.returned).map some = done.2.fired.map fun ticket =>
        ((operations.filterMap TimerOperation.pushed?)[ticket]?).map Prod.snd := by
  intro done
  obtain ⟨answers, live, follows⟩ := performAll_follows operations
  obtain ⟨accounted, pushed, returned⟩ := Agenda.performAll_accounted operations
  rw [← pushed]
  exact ⟨answers, follows.sorted, accounted.waiting, accounted.once, returned⟩

end TimerQueue

end EmbeddedHttp
