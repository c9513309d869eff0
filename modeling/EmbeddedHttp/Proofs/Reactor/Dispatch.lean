/-
# EmbeddedHttp.Proofs.Reactor.Dispatch -- the reactor and its handles, step by step

Handles submit work and cancel it whenever they like.  The reactor applies submissions in
the order of the channel, and in its rounds it takes out what is due and then starts what
it took out.  Here every access to what they share is a step of its own: a handle may act
between any two entries that are taken out and between any two actions that are started,
and an action that is started may act as a handle too.  A `Runs` of these steps is any
interleaving, told by `Act`s.

However starting an action turns out, the round goes on behind it.  Left alone, a round
takes out what `Hub.popExpired` does and starts it in that order (`runs_round`), which is
how the world fires its timers (`World.fireExpired_runs`).
-/
import EmbeddedHttp.Proofs.Runs
import EmbeddedHttp.Proofs.Timers.Popping
import EmbeddedHttp.Reactor.Hub
import EmbeddedHttp.Simulation.World

namespace EmbeddedHttp

set_option autoImplicit false

variable {Job Body : Type}

/-- How starting an action turns out. -/
inductive Outcome where
  /-- It did what it was to do. -/
  | done
  /-- A call panicked. -/
  | panicked
  /-- A task was not suspended. -/
  | skipped
  /-- A detached task could not be made. -/
  | unmade
  deriving DecidableEq, Repr

/-- What may come of starting an action. -/
inductive TimerAction.MayTurnOut : TimerAction Job Body → Outcome → Prop where
  | done (action : TimerAction Job Body) : MayTurnOut action .done
  | panicked (job : Job) : MayTurnOut (.call job) .panicked
  | skipped (task : TaskId) : MayTurnOut (.resume task) .skipped
  | unmade (body : Body) : MayTurnOut (.spawn body) .unmade

/-- What comes of an action that goes wrong. -/
def TimerAction.mishap : TimerAction Job Body → Outcome
  | .call _ => .panicked
  | .resume _ => .skipped
  | .spawn _ => .unmade

theorem TimerAction.mishap_may (action : TimerAction Job Body) :
    action.MayTurnOut action.mishap := by
  cases action with
  | call job => exact .panicked job
  | resume task => exact .skipped task
  | spawn body => exact .unmade body

/-- The ticket of a submission. -/
def HubCommand.ticket? : HubCommand Job Body → Option Ticket
  | .schedule _ _ ticket => some ticket
  | .stop _ => none

namespace Reactor

/-- Where the reactor stands. -/
inductive Round (Job Body : Type) where
  /-- Between two rounds. -/
  | free
  /-- Taking out what is due at an instant, with what was taken out so far and fires. -/
  | gathering (now : Nat) (batch : List (TimerEntry (TimerAction Job Body)))
  /-- Starting what was taken out, with what is left of it. -/
  | starting (batch : List (TimerEntry (TimerAction Job Body)))
  | gone

namespace Round

/-- What was taken out and not started yet. -/
@[simp] def inHand : Round Job Body → List (TimerEntry (TimerAction Job Body))
  | .gathering _ batch | .starting batch => batch
  | _ => []

/-- What was taken out while more may still be. -/
@[simp] def gathered : Round Job Body → List (TimerEntry (TimerAction Job Body))
  | .gathering _ batch => batch
  | _ => []

theorem gathered_subset (round : Round Job Body) : round.gathered ⊆ round.inHand := by
  cases round with
  | gathering now batch => exact fun _ member => member
  | _ => exact List.nil_subset _

end Round

/-- One thing that happens. -/
inductive Act (Job Body : Type) where
  /-- A handle submits work, and gets a ticket for it. -/
  | submitted (ticket : Ticket) (deadline : Nat) (action : TimerAction Job Body)
  /-- A handle cancels work. -/
  | cancelled (ticket : Ticket) (answer : Bool)
  /-- A handle asks to stop. -/
  | asked (grace : Option Nat)
  | applied (command : HubCommand Job Body)
  /-- The reactor looks for the next deadline. -/
  | looked (deadline : Option Nat)
  /-- A round begins at an instant. -/
  | began (now : Nat)
  /-- An entry that is due is taken out. -/
  | popped (ticket : Ticket) (fires : Bool)
  /-- Nothing more is due in the round of an instant. -/
  | gathered (now : Nat)
  | started (ticket : Ticket) (action : TimerAction Job Body) (outcome : Outcome)
  /-- The round is over. -/
  | finished
  /-- The reactor is gone. -/
  | closed

namespace Act

/-- The ticket that is given out. -/
def submitted? : Act Job Body → Option Ticket
  | .submitted ticket _ _ => some ticket
  | _ => none

/-- The ticket of a submission that is applied. -/
def applied? : Act Job Body → Option Ticket
  | .applied command => command.ticket?
  | _ => none

/-- The ticket of what is started. -/
def started? : Act Job Body → Option Ticket
  | .started ticket _ _ => some ticket
  | _ => none

/-- What is started. -/
def action? : Act Job Body → Option (TimerAction Job Body)
  | .started _ action _ => some action
  | _ => none

/-- Does this cancel what a ticket stands for? -/
def cancels (ticket : Ticket) : Act Job Body → Bool
  | .cancelled other answer => answer && other == ticket
  | _ => false

/-- Is this done by the reactor in a round? -/
@[simp] def ofRound : Act Job Body → Bool
  | .popped _ _ | .gathered _ | .started _ _ _ | .finished => true
  | _ => false

end Act

/-- The tickets given out. -/
def submittedIn (trace : List (Act Job Body)) : List Ticket := trace.filterMap Act.submitted?

/-- The tickets of the submissions that were applied. -/
def appliedIn (trace : List (Act Job Body)) : List Ticket := trace.filterMap Act.applied?

/-- The tickets of what was started. -/
def startedIn (trace : List (Act Job Body)) : List Ticket := trace.filterMap Act.started?

/-- Was this ticket cancelled in time? -/
def cancelledIn (trace : List (Act Job Body)) (ticket : Ticket) : Bool :=
  trace.any (·.cancels ticket)

theorem cancelledIn_iff {trace : List (Act Job Body)} {ticket : Ticket} :
    cancelledIn trace ticket = true ↔ .cancelled ticket true ∈ trace := by
  rw [cancelledIn, List.any_eq_true]
  constructor
  · rintro ⟨act, member, cancels⟩
    cases act with
    | cancelled other answer =>
        simp only [Act.cancels, Bool.and_eq_true, beq_iff_eq] at cancels
        obtain ⟨rfl, rfl⟩ := cancels
        exact member
    | _ => cases cancels
  · intro member
    exact ⟨_, member, by simp [Act.cancels]⟩

end Reactor

/-- A reactor with its hub, where it stands, and the instant of its last round. -/
structure Reactor (Job Body : Type) where
  hub : Hub Job Body
  round : Reactor.Round Job Body
  clock : Nat

namespace Reactor

/-- Nothing was submitted. -/
def start : Reactor Job Body := ⟨Hub.empty, .free, 0⟩

/-- One step of a handle or of the reactor. -/
inductive Step : Reactor Job Body → Act Job Body → Reactor Job Body → Prop where
  | submits {hub : Hub Job Body} {round : Round Job Body} {clock : Nat} (deadline : Nat)
      (action : TimerAction Job Body) :
      Step ⟨hub, round, clock⟩ (.submitted (hub.submit deadline action).1 deadline action)
        ⟨(hub.submit deadline action).2, round, clock⟩
  | cancels {hub : Hub Job Body} {round : Round Job Body} {clock : Nat} (ticket : Ticket) :
      Step ⟨hub, round, clock⟩ (.cancelled ticket (hub.cancel ticket).1)
        ⟨(hub.cancel ticket).2, round, clock⟩
  | asks {hub : Hub Job Body} {round : Round Job Body} {clock : Nat} (grace : Option Nat) :
      Step ⟨hub, round, clock⟩ (.asked grace) ⟨hub.requestStop grace, round, clock⟩
  | applies {hub later : Hub Job Body} {clock : Nat} {command : HubCommand Job Body}
      (received : hub.receive? = some (command, later)) :
      Step ⟨hub, .free, clock⟩ (.applied command) ⟨(later.apply command).2, .free, clock⟩
  | looks {hub : Hub Job Body} {clock : Nat} :
      Step ⟨hub, .free, clock⟩ (.looked hub.nextDeadline.1) ⟨hub.nextDeadline.2, .free, clock⟩
  | begins {hub : Hub Job Body} {clock now : Nat} (notEarlier : clock ≤ now) :
      Step ⟨hub, .free, clock⟩ (.began now) ⟨hub, .gathering now [], now⟩
  | pops {hub : Hub Job Body} {clock now : Nat}
      {batch : List (TimerEntry (TimerAction Job Body))} {entry : TimerEntry (TimerAction Job Body)}
      {fires : Bool} {timers : TimerQueue (TimerAction Job Body)}
      (popped : hub.timers.popDue? now = some (entry, fires, timers)) :
      Step ⟨hub, .gathering now batch, clock⟩ (.popped entry.ticket fires)
        ⟨{ hub with timers := timers },
          .gathering now (if fires then batch ++ [entry] else batch), clock⟩
  | gathers {hub : Hub Job Body} {clock now : Nat}
      {batch : List (TimerEntry (TimerAction Job Body))}
      (none : hub.timers.popDue? now = none) :
      Step ⟨hub, .gathering now batch, clock⟩ (.gathered now) ⟨hub, .starting batch, clock⟩
  | starts {hub : Hub Job Body} {clock : Nat} {entry : TimerEntry (TimerAction Job Body)}
      {batch : List (TimerEntry (TimerAction Job Body))} {outcome : Outcome}
      (may : entry.action.MayTurnOut outcome) :
      Step ⟨hub, .starting (entry :: batch), clock⟩ (.started entry.ticket entry.action outcome)
        ⟨hub, .starting batch, clock⟩
  | finishes {hub : Hub Job Body} {clock : Nat} :
      Step ⟨hub, .starting [], clock⟩ .finished ⟨hub, .free, clock⟩
  | closes {hub : Hub Job Body} {clock : Nat} :
      Step ⟨hub, .free, clock⟩ .closed ⟨hub.close, .gone, clock⟩

/-! ## A round left alone -/

variable {hub : Hub Job Body} {clock now : Nat}

/-- Starting what is left of a batch brings the round to its end. -/
theorem runs_starting (turnsOut : TimerAction Job Body → Outcome)
    (may : ∀ action : TimerAction Job Body, action.MayTurnOut (turnsOut action))
    (hub : Hub Job Body) (clock : Nat) (batch : List (TimerEntry (TimerAction Job Body))) :
    Runs Step ⟨hub, .starting batch, clock⟩
      (batch.map (fun entry => .started entry.ticket entry.action (turnsOut entry.action)) ++
        [.finished]) ⟨hub, .free, clock⟩ := by
  induction batch with
  | nil => exact .single .finishes
  | cons entry rest ih => exact .cons (.starts (may entry.action)) ih

/-- All of this is done by the round, and turns out as it should. -/
theorem mem_starting {turnsOut : TimerAction Job Body → Outcome}
    {batch : List (TimerEntry (TimerAction Job Body))} {act : Act Job Body}
    (member : act ∈ batch.map (fun entry => .started entry.ticket entry.action
      (turnsOut entry.action)) ++ [.finished]) :
    act.ofRound = true ∧
      ∀ ticket action outcome, act = .started ticket action outcome → outcome = turnsOut action := by
  rcases List.mem_append.1 member with isStart | isEnd
  · obtain ⟨entry, -, rfl⟩ := List.mem_map.1 isStart
    refine ⟨rfl, ?_⟩
    rintro ticket action outcome ⟨⟩
    rfl
  · rw [List.mem_singleton.1 isEnd]
    exact ⟨rfl, by simp⟩

/-- Taking out what is due, with nobody in between. -/
theorem runs_gathering (hub : Hub Job Body) (now clock : Nat)
    (batch : List (TimerEntry (TimerAction Job Body))) :
    ∃ (acts : List (Act Job Body)) (fired : List (TimerEntry (TimerAction Job Body))),
      Runs Step ⟨hub, .gathering now batch, clock⟩ acts
          ⟨(hub.popExpired now).2, .starting (batch ++ fired), clock⟩ ∧
        fired.map (·.action) = (hub.popExpired now).1 ∧
        (∀ act ∈ acts, act.ofRound = true) ∧ acts.filterMap Act.action? = [] ∧
        .finished ∉ acts := by
  -- one entry fewer is in the heap each time
  induction size : hub.timers.heap.size using Nat.strongRecOn generalizing hub batch with
  | ind n ih =>
      cases taken : hub.timers.popDue? now with
      | none =>
          have nothing := TimerQueue.popExpired_of_none taken
          refine ⟨[.gathered now], [], ?_, ?_, by simp, rfl, by simp⟩
          · rw [Hub.popExpired, nothing, List.append_nil]
            exact .single (.gathers taken)
          · rw [Hub.popExpired, nothing]
            rfl
      | some popped =>
          obtain ⟨entry, fires, timers⟩ := popped
          have rest := TimerQueue.popExpired_of_some taken
          have smaller := (TimerQueue.popDue?_popped taken).size
          obtain ⟨acts, fired, run, actions, ofRound, quiet, goesOn⟩ :=
            ih timers.heap.size (size ▸ smaller) { hub with timers := timers }
              (if fires then batch ++ [entry] else batch) rfl
          refine ⟨.popped entry.ticket fires :: acts, (if fires then [entry] else []) ++ fired,
            ?_, ?_, ?_, quiet, ?_⟩
          · have step := Runs.cons (@Step.pops _ _ _ clock _ batch _ _ _ taken) run
            rw [Hub.popExpired, rest]
            rw [Hub.popExpired] at step
            cases fires
            · exact step
            · simpa using step
          · rw [Hub.popExpired] at actions ⊢
            rw [rest, List.map_append, actions]
            cases fires <;> rfl
          · exact List.forall_mem_cons.2 ⟨rfl, ofRound⟩
          · simpa using goesOn

/-- **A round that is left alone** takes out what is due and starts all of it in order,
whatever comes of each action. -/
theorem runs_round (turnsOut : TimerAction Job Body → Outcome)
    (may : ∀ action : TimerAction Job Body, action.MayTurnOut (turnsOut action))
    (hub : Hub Job Body) (clock : Nat) (notEarlier : clock ≤ now) :
    ∃ acts : List (Act Job Body),
      Runs Step ⟨hub, .free, clock⟩ (.began now :: acts) ⟨(hub.popExpired now).2, .free, now⟩ ∧
        (∀ act ∈ acts, act.ofRound = true) ∧
        acts.filterMap Act.action? = (hub.popExpired now).1 := by
  obtain ⟨acts, fired, run, actions, ofRound, quiet, -⟩ := runs_gathering hub now now []
  refine ⟨acts ++ _, .cons (.begins notEarlier)
    (run.append (runs_starting turnsOut may _ now fired)), ?_, ?_⟩
  · exact List.forall_mem_append.2 ⟨ofRound, fun act member => (mem_starting member).1⟩
  · rw [List.filterMap_append, quiet, List.nil_append, List.filterMap_append,
      List.filterMap_map, ← actions]
    simp [Act.action?, Function.comp_def]

end Reactor

/-- **The world fires its timers as a round of the reactor.** -/
theorem Simulation.World.fireExpired_runs (world : World) (clock : Nat)
    (notEarlier : clock ≤ world.now) :
    ∃ acts, Runs Reactor.Step ⟨world.hub, .free, clock⟩ (.began world.now :: acts)
        ⟨(world.hub.popExpired world.now).2, .free, world.now⟩ ∧
      (∀ act ∈ acts, act.ofRound = true) ∧
      world.fireExpired world.now = (acts.filterMap Reactor.Act.action?).foldl World.startAction
        { world with hub := (world.hub.popExpired world.now).2 } := by
  obtain ⟨acts, run, ofRound, actions⟩ := Reactor.runs_round (fun _ => .done)
    (fun action => .done action) world.hub clock notEarlier
  exact ⟨acts, run, ofRound, by rw [actions, fireExpired]⟩

end EmbeddedHttp
