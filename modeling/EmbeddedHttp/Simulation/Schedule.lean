/-
# EmbeddedHttp.Simulation.Schedule -- who goes on next

An event loop is started for one party, its root, and runs the activities that the
root and others start.  Going on until something is pending is a *go*.  A round
gives the root a go, if it is to have one, and then goes to ready activities, to
`roundLength` of them at most.

Ready activities wait in two queues.  Code of a task runs on a thread of its own, so
an activity that it makes ready goes to a queue apart, which is served when the
other one is empty, and every `turnsOfOthers`th time before it.

In one go at most `fullAllowance` waits may end.  A party that would have more of
them end is put off until the loop has looked at the descriptors, which it does
between two rounds.
-/
namespace EmbeddedHttp.Simulation

set_option autoImplicit false

/-- Names an activity. -/
abbrev ActivityId := Nat

/-- Who goes on: an activity, or the root if none is named. -/
abbrev Party := Option ActivityId

/-- Who is to go on, and who waits for the loop itself. -/
structure Schedule where
  /-- Ready to go on, first one first. -/
  ready : List ActivityId
  /-- The same, for those that code of a task made ready. -/
  readyFromTasks : List ActivityId
  /-- How often a ready activity was looked for. -/
  turns : Nat
  /-- Is the root to go on? -/
  rootReady : Bool
  /-- How many waits may still end in the go that is under way. -/
  allowance : Nat
  /-- Put off in their go, last one first. -/
  deferred : List Party
  /-- Waiting for a descriptor that is ready, as the loop has not seen yet. -/
  watching : List Party
  /-- Waiting for a descriptor that the loop has seen to be ready. -/
  seen : List Party

namespace Schedule

/-- How many activities have a go in one round, at most. -/
def roundLength : Nat := 61

/-- How often the queue of those that tasks made ready comes first. -/
def turnsOfOthers : Nat := 31

/-- How many waits may end in one go. -/
def fullAllowance : Nat := 128

/-- Nobody is to go on. -/
def empty : Schedule := ⟨[], [], 0, false, fullAllowance, [], [], []⟩

/-! ## Becoming ready -/

/-- Does the activity wait in a queue? -/
def isReady (schedule : Schedule) (id : ActivityId) : Bool :=
  schedule.ready.contains id || schedule.readyFromTasks.contains id

/-- In a go, somebody becomes ready. -/
def wake (schedule : Schedule) : Party → Schedule
  | none => { schedule with rootReady := true }
  | some id =>
      if schedule.isReady id then schedule
      else { schedule with ready := schedule.ready ++ [id] }

/-- Code of a task makes somebody ready.  The root has a go to see to it. -/
def wakeFromTask (schedule : Schedule) : Party → Schedule
  | none => { schedule with rootReady := true }
  | some id =>
      if schedule.isReady id then schedule
      else { schedule with
        readyFromTasks := schedule.readyFromTasks ++ [id]
        rootReady := true }

/-- Between two rounds, somebody becomes ready.  The root has a go before any
activity. -/
def wakeBetween (schedule : Schedule) (party : Party) : Schedule :=
  { schedule.wake party with rootReady := true }

/-! ## Going on -/

/-- The activity that goes on next, taken out of its queue. -/
def next (schedule : Schedule) : Option ActivityId × Schedule :=
  let others := schedule.turns % turnsOfOthers == 0
  let schedule := { schedule with turns := schedule.turns + 1 }
  match others, schedule.ready, schedule.readyFromTasks with
  | true, _, id :: rest => (some id, { schedule with readyFromTasks := rest })
  | _, id :: rest, _ => (some id, { schedule with ready := rest })
  | _, [], id :: rest => (some id, { schedule with readyFromTasks := rest })
  | _, [], [] => (none, schedule)

/-- A go begins. -/
def beginGo (schedule : Schedule) : Schedule := { schedule with allowance := fullAllowance }

/-- The root's go begins. -/
def beginRootGo (schedule : Schedule) : Schedule := { schedule.beginGo with rootReady := false }

/-- May no further wait end in this go? -/
def isSpent (schedule : Schedule) : Bool := schedule.allowance == 0

/-- A wait ends. -/
def spend (schedule : Schedule) : Schedule :=
  { schedule with allowance := schedule.allowance - 1 }

/-- Put a party off. -/
def defer (schedule : Schedule) (party : Party) : Schedule :=
  if schedule.deferred.head? == some party then schedule
  else { schedule with deferred := party :: schedule.deferred }

/-! ## Descriptors -/

/-- A party begins to wait for a descriptor that is ready. -/
def watch (schedule : Schedule) (party : Party) : Schedule :=
  if schedule.watching.contains party then schedule
  else { schedule with watching := schedule.watching ++ [party] }

/-- A party waits for no descriptor any more. -/
def unwatch (schedule : Schedule) (party : Party) : Schedule :=
  { schedule with
    watching := schedule.watching.filter (· != party)
    seen := schedule.seen.filter (· != party) }

/-- Was the descriptor that a party waits for seen to be ready? -/
def hasSeen (schedule : Schedule) (party : Party) : Bool := schedule.seen.contains party

/-- The loop looks at the descriptors. -/
def look (schedule : Schedule) : Schedule :=
  schedule.watching.foldl wakeBetween
    { schedule with watching := [], seen := schedule.seen ++ schedule.watching }

/-- Those that were put off become ready, the last one first. -/
def bringBack (schedule : Schedule) : Schedule :=
  schedule.deferred.foldl wakeBetween { schedule with deferred := [] }

/-- Does somebody wait for the loop to look at the descriptors? -/
def hasToLook (schedule : Schedule) : Bool :=
  !schedule.watching.isEmpty || !schedule.deferred.isEmpty

end Schedule

end EmbeddedHttp.Simulation
