/-
# EmbeddedHttp.TimerQueue -- deadlines in order, with lazy cancellation

Entries are kept in a heap that gives out the earliest deadline first, and among
equal deadlines the entry that arrived first.  Whoever schedules an entry holds a
ticket for it.  The fate of a ticket is kept beside the entries: cancelling only
changes the fate, and the entry itself is dropped when it reaches the top of the
heap.  A ticket can be drawn before its entry arrives, so an entry may be cancelled
while it is still on its way.
-/
import EmbeddedHttp.Heap

namespace EmbeddedHttp

set_option autoImplicit false

/-- What became of a scheduled entry. -/
inductive Fate where
  | pending
  | fired
  | cancelled
  deriving DecidableEq, Repr

/-- Names one scheduled entry. -/
abbrev Ticket := Nat

/-- An action and the instant at which it is due. -/
structure TimerEntry (α : Type) where
  deadline : Nat
  /-- How many entries were scheduled before. -/
  seq : Nat
  ticket : Ticket
  action : α

/-- Reversed, so that the greatest entry is the one that is due first; of two entries that
are due at one instant it is the one that was scheduled first. -/
def TimerEntry.cmp {α : Type} (one other : TimerEntry α) : Ordering :=
  (compare other.deadline one.deadline).then (compare other.seq one.seq)

/-- The entries, how many were ever scheduled, and the fate of every ticket drawn so far. -/
structure TimerQueue (α : Type) where
  heap : Heap (TimerEntry α)
  nextSeq : Nat
  fates : List Fate

namespace TimerQueue

variable {α : Type}

/-- Nothing scheduled. -/
def empty : TimerQueue α := ⟨.empty, 0, []⟩

/-- A new ticket, pending. -/
def draw (queue : TimerQueue α) : Ticket × TimerQueue α :=
  (queue.fates.length, { queue with fates := queue.fates ++ [.pending] })

/-- The fate of a ticket. -/
def fate? (queue : TimerQueue α) (ticket : Ticket) : Option Fate :=
  queue.fates[ticket]?

/-- Is the entry still waiting for its deadline? -/
def isActive (queue : TimerQueue α) (ticket : Ticket) : Bool :=
  queue.fate? ticket == some .pending

/-- Cancel the entry of a ticket.  The answer tells whether it was pending. -/
def cancel (queue : TimerQueue α) (ticket : Ticket) : Bool × TimerQueue α :=
  if queue.isActive ticket then
    (true, { queue with fates := queue.fates.set ticket .cancelled })
  else (false, queue)

/-- Schedule an action under a ticket that was drawn before. -/
def schedule (queue : TimerQueue α) (deadline : Nat) (action : α) (ticket : Ticket) :
    TimerQueue α :=
  { queue with
    heap := queue.heap.push TimerEntry.cmp ⟨deadline, queue.nextSeq, ticket, action⟩
    nextSeq := queue.nextSeq + 1 }

/-- Draw a ticket and schedule an action under it. -/
def push (queue : TimerQueue α) (deadline : Nat) (action : α) : Ticket × TimerQueue α :=
  let drawn := queue.draw
  (drawn.1, drawn.2.schedule deadline action drawn.1)

/-- The earliest deadline of a pending entry.  Entries above it that are not pending are
dropped. -/
def nextDeadline (queue : TimerQueue α) : Option Nat × TimerQueue α :=
  let live :=
    (queue.heap.drainWhile TimerEntry.cmp fun entry => !queue.isActive entry.ticket).2
  (live.peek?.map (·.deadline), { queue with heap := live })

/-- Fire the pending ones among `due`, in order: their actions, and the fates
afterwards. -/
def fire : List (TimerEntry α) → List Fate → List α × List Fate
  | [], fates => ([], fates)
  | entry :: rest, fates =>
      if fates[entry.ticket]? = some .pending then
        let fired := fire rest (fates.set entry.ticket .fired)
        (entry.action :: fired.1, fired.2)
      else fire rest fates

/-- Remove every entry due at or before `now`; the actions of the pending ones,
in order, are the result. -/
def popExpired (queue : TimerQueue α) (now : Nat) : List α × TimerQueue α :=
  let due := queue.heap.drainWhile TimerEntry.cmp fun entry => decide (entry.deadline ≤ now)
  let fired := fire due.1 queue.fates
  (fired.1, { queue with heap := due.2, fates := fired.2 })

/-- How many entries are held, cancelled ones included. -/
def size (queue : TimerQueue α) : Nat := queue.heap.size

/-- Is no entry held? -/
def isEmpty (queue : TimerQueue α) : Bool := queue.size == 0

end TimerQueue

end EmbeddedHttp
