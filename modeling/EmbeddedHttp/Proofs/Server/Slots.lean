/-
# EmbeddedHttp.Proofs.Server.Slots -- how many connections, and until when

A connection takes a slot when it is accepted and gives it back when it returns, so the
slots that are taken are the connections that are open and those that were lost (`Slots`).
While the loop waits it has an eye on every timer and on the end of the grace period
(`Watchful`).  Both hold at every moment of every run, because every step keeps them.

The main result `accepts_in_bounds` says what follows for a whole run: the limit is kept,
nothing is accepted behind a request to stop, and the loop ends only when it should.  A
connection that was lost counts as open for ever, so the limit shrinks with every one.
-/
import EmbeddedHttp.Proofs.Reactor.Custody
import EmbeddedHttp.Proofs.Server.Serving

namespace EmbeddedHttp

set_option autoImplicit false

/-! ## What one turn comes to -/

namespace Acceptor

variable {acceptor : Acceptor} {now wakeAt : Nat} {next : Option Nat} {accepting : Bool}

theorem isAccepting_iff : acceptor.isAccepting = true ↔
    acceptor.stopAt = none ∧ acceptor.openConnections < acceptor.maxConnections := by
  simp [isAccepting]

theorem isAccepting_departed (may : acceptor.isAccepting = true) (n : Nat) :
    (acceptor.departed n).isAccepting = true := by
  obtain ⟨noStop, room⟩ := isAccepting_iff.1 may
  exact isAccepting_iff.2 ⟨noStop, (Nat.sub_le _ _).trans_lt room⟩

theorem wakeAt_le_stopAt {deadline : Nat} (stops : acceptor.stopAt = some deadline) :
    acceptor.wakeAt now next ≤ deadline := by
  simp [wakeAt, stops]

theorem wakeAt_le_next {first : Nat} (known : next = some first) :
    acceptor.wakeAt now next ≤ first := by
  subst known
  cases stops : acceptor.stopAt <;> simp [wakeAt, stops]

theorem verdict_waiting (verdict : acceptor.verdict now next = .waiting accepting wakeAt) :
    accepting = acceptor.isAccepting ∧ wakeAt = acceptor.wakeAt now next := by
  unfold Acceptor.verdict at verdict
  split at verdict
  · cases verdict
    exact ⟨rfl, rfl⟩
  · split at verdict
    · cases verdict
    · split at verdict <;> cases verdict
      exact ⟨rfl, rfl⟩

theorem verdict_over
    (unwaiting : ∀ accepting wakeAt, acceptor.verdict now next ≠ .waiting accepting wakeAt) :
    ∃ deadline, acceptor.stopAt = some deadline ∧
      (acceptor.openConnections = 0 ∨ deadline ≤ now) := by
  unfold Acceptor.verdict at unwaiting
  split at unwaiting
  · exact absurd rfl (unwaiting _ _)
  · rename_i deadline stops
    refine ⟨deadline, stops, ?_⟩
    split at unwaiting
    · rename_i idle
      exact .inl idle
    · split at unwaiting
      · rename_i late
        exact .inr late
      · exact absurd rfl (unwaiting _ _)

end Acceptor

/-! ## The timers that are live -/

variable {Job Body : Type}

/-- The deadline of every timer that is live has a property. -/
def Hub.LiveAll (hub : Hub Job Body) (property : Nat → Prop) : Prop :=
  ∃ live, hub.timers.Holds live ∧ ∀ entry ∈ live, property entry.deadline

/-- Nothing that a handle does makes a timer live. -/
theorem Reactor.Step.liveAll {reactor after : Reactor Job Body} {act : Reactor.Act Job Body}
    {property : Nat → Prop} (moved : reactor.Step act after) (ofHandle : act.ofHandle = true)
    (all : reactor.hub.LiveAll property) : after.hub.LiveAll property := by
  obtain ⟨live, holds, every⟩ := all
  cases moved with
  | submits deadline action => exact ⟨live, Hub.submit_holds holds deadline action, every⟩
  | cancels ticket =>
      exact ⟨_, holds.cancel ticket, fun entry member => every entry (List.mem_filter.1 member).1⟩
  | asks grace => exact ⟨live, (Hub.requestStop_keeps _ grace).1.symm ▸ holds, every⟩
  | _ => cases ofHandle

/-- The next deadline is not behind that of any timer that is live. -/
theorem Reactor.Step.looks_first {reactor after : Reactor Job Body} {next : Option Nat}
    (moved : reactor.Step (.looked next) after) (holds : ∃ live, reactor.hub.timers.Holds live) :
    after.hub.LiveAll fun deadline => ∃ first, next = some first ∧ first ≤ deadline := by
  obtain ⟨live, held⟩ := holds
  cases moved with
  | looks =>
      obtain ⟨first, later⟩ := held.nextDeadline
      refine ⟨live, later, ?_⟩
      intro entry member
      cases live with
      | nil => cases member
      | cons head rest =>
          refine ⟨head.deadline, first, ?_⟩
          rcases List.mem_cons.1 member with rfl | inRest
          · exact Nat.le_refl _
          · rcases (List.pairwise_cons.1 held.inOrder).1 entry inRest with before | ⟨same, -⟩
            · exact before.le
            · exact same.le

namespace Server

variable {trace front : List (Act Job Body)} {server after : Server Job Body} {act : Act Job Body}
  {config : Config}

/-! ## The slots -/

/-- When the grace period of the most recent request to stop ends. -/
def stopAtIn (shutdownGrace : Nat) (trace : List (Act Job Body)) : Option Nat :=
  (trace.filterMap (Act.stopAt? shutdownGrace)).getLast?

/-- How many connections were accepted. -/
def acceptedIn (trace : List (Act Job Body)) : Nat := trace.countP Act.isAccepted

/-- How many slots were given back. -/
def returnedIn (trace : List (Act Job Body)) : Nat := trace.countP Act.isReturned

/-- How many slots were lost. -/
def lostIn (trace : List (Act Job Body)) : Nat := trace.countP Act.isLost

theorem stopAtIn_concat (shutdownGrace : Nat) (trace : List (Act Job Body)) (act : Act Job Body) :
    stopAtIn shutdownGrace (trace ++ [act]) =
      (act.stopAt? shutdownGrace).or (stopAtIn shutdownGrace trace) := by
  rw [stopAtIn, told_concat, List.getLast?_append, stopAtIn]
  cases act.stopAt? shutdownGrace <;> rfl

theorem stopAtIn_eq_none {shutdownGrace : Nat} (none : stopAtIn shutdownGrace trace = none)
    (now : Nat) (grace : Option Nat) : .applied now (.stop grace) ∉ trace := by
  intro member
  have empty := List.getLast?_eq_none_iff.1 none
  have told : now + grace.getD shutdownGrace ∈ trace.filterMap (Act.stopAt? shutdownGrace) :=
    List.mem_filterMap.2 ⟨_, member, rfl⟩
  rw [empty] at told
  cases told

/-- So many connections are open and so many slots are taken. -/
def Balanced (trace : List (Act Job Body)) (connections slots : Nat) : Prop :=
  acceptedIn trace = connections + returnedIn trace + lostIn trace ∧
    slots = connections + lostIn trace

namespace Balanced

variable {connections slots : Nat}

theorem idle (balanced : Balanced trace connections slots) (accepted : act.isAccepted = false)
    (returned : act.isReturned = false) (lost : act.isLost = false) :
    Balanced (trace ++ [act]) connections slots := by
  simpa [Balanced, acceptedIn, returnedIn, lostIn, accepted, returned, lost] using balanced

theorem accept (balanced : Balanced trace connections slots) :
    Balanced (trace ++ [.accepted]) (connections + 1) (slots + 1) := by
  simp only [Balanced, acceptedIn, returnedIn, lostIn] at balanced
  simp [Balanced, acceptedIn, returnedIn, lostIn, Act.isAccepted, Act.isReturned, Act.isLost]
  omega

theorem giveBack (balanced : Balanced trace (connections + 1) slots) :
    Balanced (trace ++ [.returned]) connections (slots - 1) := by
  simp only [Balanced, acceptedIn, returnedIn, lostIn] at balanced
  simp [Balanced, acceptedIn, returnedIn, lostIn, Act.isAccepted, Act.isReturned, Act.isLost]
  omega

theorem lose (balanced : Balanced trace (connections + 1) slots) :
    Balanced (trace ++ [.lost]) connections slots := by
  simp only [Balanced, acceptedIn, returnedIn, lostIn] at balanced
  simp [Balanced, acceptedIn, returnedIn, lostIn, Act.isAccepted, Act.isReturned, Act.isLost]
  omega

end Balanced

/-- How the slots stand. -/
structure Slots (config : Config) (trace : List (Act Job Body)) (server : Server Job Body) :
    Prop where
  limit : server.acceptor.maxConnections = config.acceptor.maxConnections
  grace : server.acceptor.shutdownGrace = config.acceptor.shutdownGrace
  stop : server.acceptor.stopAt = stopAtIn config.acceptor.shutdownGrace trace
  balanced : Balanced trace server.connections server.acceptor.openConnections
  within : server.acceptor.openConnections ≤ config.acceptor.maxConnections
  /-- What was to be accepted when the loop began to wait still is. -/
  room : ∀ wakeAt, server.phase = .waiting true wakeAt → server.acceptor.isAccepting = true

namespace Slots

theorem frame (slots : Slots config trace server) (idle : act.isIdle = true)
    (acceptor : after.acceptor = server.acceptor)
    (connections : after.connections = server.connections)
    (room : ∀ wakeAt, after.phase = .waiting true wakeAt → server.acceptor.isAccepting = true) :
    Slots config (trace ++ [act]) after where
  limit := acceptor ▸ slots.limit
  grace := acceptor ▸ slots.grace
  stop := by rw [stopAtIn_concat, (Act.idle_facts idle).1, Option.none_or, acceptor, slots.stop]
  balanced := by
    obtain ⟨-, accepted, returned, lost⟩ := Act.idle_facts idle
    rw [connections, acceptor]
    exact slots.balanced.idle accepted returned lost
  within := acceptor ▸ slots.within
  room := acceptor ▸ room

theorem accept (slots : Slots config trace server) {wakeAt : Nat}
    (waiting : server.phase = .waiting true wakeAt) :
    Slots config (trace ++ [.accepted]) { server with
      acceptor := server.acceptor.accepted
      phase := .turning
      connections := server.connections + 1 } where
  limit := slots.limit
  grace := slots.grace
  stop := (stopAtIn_concat _ trace _).symm ▸ slots.stop
  balanced := slots.balanced.accept
  within := by
    have room := (Acceptor.isAccepting_iff.1 (slots.room wakeAt waiting)).2
    rwa [slots.limit] at room
  room _ turning := by cases turning

theorem heed (slots : Slots config trace server) (command : HubCommand Job Body)
    (reactor : Reactor Job Body) :
    Slots config (trace ++ [.applied server.now command]) { server with
      reactor := reactor
      acceptor := server.acceptor.heed server.now command
      phase := .turning } := by
  cases command with
  | schedule deadline action ticket =>
      exact slots.frame rfl rfl rfl fun _ turning => by cases turning
  | stop grace =>
      have stop : some (server.now + grace.getD server.acceptor.shutdownGrace) =
          stopAtIn config.acceptor.shutdownGrace (trace ++ [.applied server.now (.stop grace)]) := by
        rw [stopAtIn_concat, slots.grace]
        rfl
      exact ⟨slots.limit, slots.grace, stop, slots.balanced.idle rfl rfl rfl, slots.within,
        fun _ turning => by cases turning⟩

theorem giveBack (slots : Slots config trace server) {rest : Nat}
    (isOpen : server.connections = rest + 1) :
    Slots config (trace ++ [.returned]) { server with
      acceptor := server.acceptor.departed 1
      connections := rest } where
  limit := slots.limit
  grace := slots.grace
  stop := (stopAtIn_concat _ trace _).symm ▸ slots.stop
  balanced := Balanced.giveBack (isOpen ▸ slots.balanced)
  within := (Nat.sub_le _ _).trans slots.within
  room wakeAt waiting := Acceptor.isAccepting_departed (slots.room wakeAt waiting) 1

theorem lose (slots : Slots config trace server) {rest : Nat}
    (isOpen : server.connections = rest + 1) :
    Slots config (trace ++ [.lost]) { server with connections := rest } where
  limit := slots.limit
  grace := slots.grace
  stop := (stopAtIn_concat _ trace _).symm ▸ slots.stop
  balanced := Balanced.lose (isOpen ▸ slots.balanced)
  within := slots.within
  room := slots.room

/-- **Every step keeps account of the slots.** -/
theorem step (slots : Slots config trace server) (moved : server.Step act after) :
    Slots config (trace ++ [act]) after := by
  cases moved with
  | passes later => exact slots.frame rfl rfl rfl slots.room
  | dispatches moved goes =>
      refine slots.frame rfl rfl rfl ?_
      rintro wakeAt (rfl : _ = _)
      generalize before : server.phase = earlier at goes
      cases goes with
      | handle ofHandle => exact slots.room wakeAt before
  | waits deciding verdict =>
      refine slots.frame rfl rfl rfl ?_
      rintro wakeAt ⟨⟩
      exact (Acceptor.verdict_waiting verdict).1.symm
  | ends deciding verdict =>
      exact slots.frame rfl rfl rfl fun _ ended => by cases ended
  | accepts waiting => exact slots.accept waiting
  | refuses waiting =>
      exact slots.frame rfl rfl rfl fun _ turning => by cases turning
  | applies waiting moved => exact slots.heed _ _
  | wakes waiting =>
      exact slots.frame rfl rfl rfl fun _ turning => by cases turning
  | returns isOpen => exact slots.giveBack isOpen
  | loses isOpen => exact slots.lose isOpen

end Slots

theorem slots_of_run (run : Runs Step (start config.acceptor) trace server) :
    Slots config trace server := by
  induction run with
  | here =>
      exact ⟨rfl, rfl, rfl, ⟨rfl, rfl⟩, Nat.zero_le _, fun _ turning => by cases turning⟩
  | next run moved ih => exact ih.step moved

/-! ## The wait -/

/-- The loop has an eye on every timer that is live, and on the end of the grace period. -/
def Watchful (server : Server Job Body) : Prop :=
  match server.phase with
  | .deciding _ next =>
      server.reactor.hub.LiveAll fun deadline => ∃ first, next = some first ∧ first ≤ deadline
  | .waiting _ wakeAt =>
      server.reactor.hub.LiveAll (wakeAt ≤ ·) ∧
        ∀ deadline, server.acceptor.stopAt = some deadline → wakeAt ≤ deadline
  | _ => True

theorem Watchful.step (watchful : server.Watchful)
    (holds : ∃ live, server.reactor.hub.timers.Holds live) (moved : server.Step act after) :
    after.Watchful := by
  obtain ⟨reactor, acceptor, phase, now, connections⟩ := server
  cases moved with
  | passes later => exact watchful
  | dispatches moved goes =>
      cases goes with
      | handle ofHandle =>
          cases phase with
          | deciding before next =>
              have all : reactor.hub.LiveAll fun deadline =>
                  ∃ first, next = some first ∧ first ≤ deadline := watchful
              exact moved.liveAll ofHandle all
          | waiting accepting wakeAt =>
              obtain ⟨all, stops⟩ := watchful
              exact ⟨moved.liveAll ofHandle all, stops⟩
          | _ => trivial
      | looks => exact moved.looks_first holds
      | _ => trivial
  | waits deciding verdict =>
      cases deciding
      obtain ⟨-, rfl⟩ := Acceptor.verdict_waiting verdict
      obtain ⟨live, held, first⟩ := watchful
      refine ⟨⟨live, held, ?_⟩, fun deadline stops => Acceptor.wakeAt_le_stopAt stops⟩
      intro entry member
      obtain ⟨deadline, known, sooner⟩ := first entry member
      exact (Acceptor.wakeAt_le_next known).trans sooner
  | ends | accepts | refuses | applies | wakes => trivial
  | returns isOpen | loses isOpen =>
      cases phase with
      | deciding | waiting => exact watchful
      | _ => trivial

theorem watchful_of_run (run : Runs Step (start config.acceptor) trace server) :
    server.Watchful := by
  induction run with
  | here => trivial
  | next run moved ih =>
      exact ih.step (Reactor.custody_of_run (reactor_run run)).stored.holds moved

/-! ## A whole run -/

/-- The accept loop keeps to its limits. -/
structure InBounds (config : Config) (trace : List (Act Job Body)) (server : Server Job Body) :
    Prop where
  /-- Every connection that was accepted is open, or gave its slot back, or lost it. -/
  accounted : acceptedIn trace = server.connections + returnedIn trace + lostIn trace
  /-- A slot is taken by every connection that is open, and by every one that lost its own. -/
  counted : server.acceptor.openConnections = server.connections + lostIn trace
  within : server.acceptor.openConnections ≤ config.maxConnections.toNat
  /-- Nothing is accepted once a request to stop was applied. -/
  heeds : ∀ front back, trace = front ++ .accepted :: back →
    ∀ now grace, .applied now (.stop grace) ∉ front
  /-- The loop is about to accept exactly if there is a slot and no request to stop, -/
  decides : ∀ front accepting wakeAt back, trace = front ++ .waited accepting wakeAt :: back →
    (accepting = true ↔ stopAtIn config.acceptor.shutdownGrace front = none ∧
      acceptedIn front < returnedIn front + config.maxConnections.toNat)
  /-- and it wakes when the first timer is due or the grace period ends, at the latest. -/
  wakes : ∀ accepting wakeAt, server.phase = .waiting accepting wakeAt →
    (∀ entry ∈ server.reactor.hub.timers.heap.toList,
      server.reactor.hub.isActive entry.ticket = true → wakeAt ≤ entry.deadline) ∧
    ∀ deadline, stopAtIn config.acceptor.shutdownGrace trace = some deadline → wakeAt ≤ deadline
  /-- The loop ends behind a request to stop, with no slot taken or when the grace period
  of the most recent one is over. -/
  ends : ∀ front now back, trace = front ++ .ended now :: back →
    ∃ deadline, stopAtIn config.acceptor.shutdownGrace front = some deadline ∧
      (acceptedIn front = returnedIn front ∨ deadline ≤ now)

/-- **The accept loop keeps to its limits**, over every interleaving of connections, handles,
timers and time.  A connection that is lost counts as open for ever. -/
theorem accepts_in_bounds (run : Runs Step (start config.acceptor) trace server) :
    InBounds config trace server := by
  have slots := slots_of_run run
  obtain ⟨accounted, counted⟩ := slots.balanced
  have watchful := watchful_of_run run
  refine ⟨accounted, counted, slots.within, ?_, ?_, ?_, ?_⟩
  · rintro front back rfl
    obtain ⟨before, first, rest⟩ := run.split
    obtain ⟨later, moved, -⟩ := rest.cons_inv
    have then_slots := slots_of_run first
    cases moved with
    | accepts waiting =>
        have noStop := (Acceptor.isAccepting_iff.1 (then_slots.room _ waiting)).1
        rw [then_slots.stop] at noStop
        exact stopAtIn_eq_none noStop
  · rintro front accepting wakeAt back rfl
    obtain ⟨before, first, rest⟩ := run.split
    obtain ⟨later, moved, -⟩ := rest.cons_inv
    have then_slots := slots_of_run first
    obtain ⟨opened, taken⟩ := then_slots.balanced
    cases moved with
    | waits deciding verdict =>
        rw [(Acceptor.verdict_waiting verdict).1, Acceptor.isAccepting_iff, then_slots.stop,
          then_slots.limit, taken, opened]
        refine and_congr_right fun _ => ?_
        change _ < config.maxConnections.toNat ↔ _
        omega
  · intro accepting wakeAt waiting
    rw [Watchful, waiting] at watchful
    obtain ⟨⟨live, holds, early⟩, stops⟩ := watchful
    refine ⟨?_, slots.stop ▸ stops⟩
    intro entry member active
    exact early entry ((holds.mem_iff entry).2 ⟨member, active⟩)
  · rintro front now back rfl
    obtain ⟨before, first, rest⟩ := run.split
    obtain ⟨later, moved, -⟩ := rest.cons_inv
    have then_slots := slots_of_run first
    obtain ⟨opened, taken⟩ := then_slots.balanced
    cases moved with
    | ends deciding verdict =>
        obtain ⟨deadline, stops, why⟩ := Acceptor.verdict_over verdict
        refine ⟨deadline, then_slots.stop ▸ stops, ?_⟩
        rcases why with idle | late
        · left
          omega
        · exact .inr late

/-- A valid configuration in which a connection is lost as soon as a small body is announced. -/
def boundless : Config := { maxContentLength := 18446744073709551615 }

/-- The one connection that was accepted is lost, and the loop waits for it until the grace
period is over. -/
theorem lost_slot_in_bounds :
    boundless.isValid = true ∧ ∃ (trace : List (Act String Unit)) (server : Server String Unit),
      Runs Step (start boundless.acceptor) trace server ∧ InBounds boundless trace server ∧
        server.connections = 0 ∧ server.acceptor.openConnections = 1 ∧
          server.phase = .ended := by
  refine ⟨by decide, ?_⟩
  have quiet : (Hub.empty : Hub String Unit).timers = TimerQueue.empty := rfl
  have asked : ((Hub.empty : Hub String Unit).requestStop (some 300)).timers = TimerQueue.empty :=
    rfl
  obtain ⟨_, first⟩ := runs_idle_turn quiet boundless.acceptor 0 (Nat.le_refl 0)
  have lost := (((first.next (.waits rfl rfl)).next (.accepts rfl)).next (.loses rfl)).next
    (.dispatches (.asks (some 300)) (.handle rfl))
  obtain ⟨_, second⟩ := runs_idle_turn asked boundless.acceptor.accepted 0 (Nat.le_refl 0)
  have stopped := ((lost.append second).next (.waits rfl rfl)).next (.applies rfl (.applies rfl))
  have late := stopped.next (.passes (Nat.zero_le 300))
  obtain ⟨_, third⟩ :=
    runs_idle_turn quiet (boundless.acceptor.accepted.stop 0 (some 300)) 0 (Nat.zero_le 300)
  have unwaiting : ∀ accepting wakeAt,
      (boundless.acceptor.accepted.stop 0 (some 300)).verdict 300 none ≠
        .waiting accepting wakeAt := by
    intro accepting wakeAt verdict
    cases verdict
  have ended := (late.append third).next (.ends rfl unwaiting)
  exact ⟨_, _, ended, accepts_in_bounds ended, rfl, rfl, rfl⟩

end Server

end EmbeddedHttp
