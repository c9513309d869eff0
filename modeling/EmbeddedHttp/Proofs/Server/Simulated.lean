/-
# EmbeddedHttp.Proofs.Server.Simulated -- the simulated acceptor is a server

The simulated world runs its acceptor and its connections as activities that have a go one
after the other.  With the reactor between two rounds and the slots of connections whose end
the acceptor has not noticed yet given back, it stands where a server does (`World.server`).

A go of the acceptor is a run of the server (`acceptRounds_runs`), and so is a go of any
other activity (`runActivity_runs`): all it does to the hub it does by handles (`Aside`), and
a connection that comes to its end gives its slot back, unless it overflowed.
-/
import EmbeddedHttp.Proofs.Server.Serving
import EmbeddedHttp.Proofs.Task.Switching
import EmbeddedHttp.Simulation.Loop

namespace EmbeddedHttp

set_option autoImplicit false

/-! ## What a host keeps -/

section

variable {Item Call : Type} {Answer : Call → Type} {σ : Type} {host : Host Call Answer σ}
  {Related : σ → σ → Prop}

/-- Running code relates the state of its host to every state that single answers and
changes of the state word lead to. -/
theorem Program.run_related (refl : ∀ s, Related s s)
    (trans : ∀ {one two three}, Related one two → Related two three → Related one three)
    (answer : ∀ request s, Related s (host.answer request s).2)
    (setState : ∀ state s, Related s (host.setState state s))
    (program : Program Item Call Answer) (cancelled : Bool) (s : σ) :
    Related s (program.run host cancelled s).2 := by
  have waits : ∀ {program : Program Item Call Answer} {wait : Wait}
      {next : Continuation Item Call Answer} {s : σ}, program.wait? = some (wait, next) →
        (∀ result s, Related s ((next result).run host cancelled s).2) →
          Related s (program.run host cancelled s).2 := by
    intro program wait next s stands behind
    rw [Program.run_wait stands]
    split
    · split
      · exact trans (setState .running s) (behind _ _)
      · exact setState wait.state s
    · exact behind _ _
  induction program generalizing s with
  | finish result => exact setState .finished s
  | panic payload => exact setState .finished s
  | suspend timeout next ih => exact waits rfl fun result s => ih result s
  | trampoline descriptor read write timeout next ih => exact waits rfl fun result s => ih _ s
  | sleep time next ih => exact waits rfl fun result s => ih _ s
  | emit item next ih =>
      cases cancelled with
      | true => exact trans (setState .running s) (ih _ _)
      | false => exact refl s
  | call request next ih => exact trans (answer request s) (ih _ _)

theorem Task.switch_related (refl : ∀ s, Related s s)
    (trans : ∀ {one two three}, Related one two → Related two three → Related one three)
    (answer : ∀ request s, Related s (host.answer request s).2)
    (setState : ∀ state s, Related s (host.setState state s))
    (task : Task Item Call Answer) (resume : Resume) (s : σ) :
    Related s (task.switch host resume s).2.2 := by
  cases task with
  | finished => exact refl s
  | fresh body =>
      rw [switch]
      split
      · exact refl s
      · exact Program.run_related refl trans answer setState body false s
  | paused next =>
      exact trans (setState .running s)
        (Program.run_related refl trans answer setState _ _ _)

end

namespace Simulation.World

/-! ## What an activity does to the accept loop -/

/-- Between two worlds handles acted on the hub, and nothing else came to the accept loop. -/
structure Aside (world later : World) : Prop where
  now : later.now = world.now
  departures : later.departures = world.departures
  served : later.served = world.served
  hub : ∃ acts : List (Reactor.Act ScriptedCall ScriptProgram),
    (∀ act ∈ acts, act.ofHandle = true) ∧ ∀ round clock,
      Runs Reactor.Step ⟨world.hub, round, clock⟩ acts ⟨later.hub, round, clock⟩

namespace Aside

variable {world middle later : World}

/-- The accept loop sees nothing of this. -/
theorem unseen (now : later.now = world.now) (departures : later.departures = world.departures)
    (served : later.served = world.served) (hub : later.hub = world.hub) : Aside world later :=
  ⟨now, departures, served, [], List.forall_mem_nil _, fun _ _ => hub ▸ .here⟩

theorem refl (world : World) : Aside world world := unseen rfl rfl rfl rfl

theorem trans (first : Aside world middle) (second : Aside middle later) : Aside world later := by
  obtain ⟨one, oneOfHandle, run⟩ := first.hub
  obtain ⟨two, twoOfHandle, further⟩ := second.hub
  exact ⟨second.now.trans first.now, second.departures.trans first.departures,
    second.served.trans first.served, one ++ two,
    List.forall_mem_append.2 ⟨oneOfHandle, twoOfHandle⟩,
    fun round clock => (run round clock).append (further round clock)⟩

end Aside

variable (world : World)

theorem deliver_aside (wake : Schedule → Party → Schedule) (id : TaskId) (signal : Signal) :
    Aside world (world.deliver wake id signal).2 := by
  rw [deliver]
  split <;> exact .unseen rfl rfl rfl rfl

theorem wakeWhere_aside (isMeant : Job → Bool) : Aside world (world.wakeWhere isMeant) := by
  rw [wakeWhere]
  generalize world.activities.filter _ = activities
  induction activities generalizing world with
  | nil => exact .refl world
  | cons activity activities ih =>
      have woken : Aside world (world.reschedule (·.wake (some activity.id))) :=
        .unseen rfl rfl rfl rfl
      exact woken.trans (ih _)

theorem notifyListeners_aside : Aside world world.notifyListeners := by
  rw [notifyListeners]
  split
  · exact .unseen rfl rfl rfl rfl
  · exact wakeWhere_aside world _

theorem submit_aside (deadline : Nat) (action : TimerAction ScriptedCall ScriptProgram) :
    Aside world (world.submit deadline action).2 := by
  have submitted : Aside world { world with hub := (world.hub.submit deadline action).2 } :=
    ⟨rfl, rfl, rfl, [.submitted _ deadline action], by simp,
      fun round clock => .single (.submits deadline action)⟩
  exact submitted.trans (notifyListeners_aside _)

theorem requestStop_aside (grace : Option Nat) : Aside world (world.requestStop grace) := by
  have asked : Aside world { world with hub := world.hub.requestStop grace } :=
    ⟨rfl, rfl, rfl, [.asked grace], by simp, fun round clock => .single (.asks grace)⟩
  exact asked.trans (notifyListeners_aside _)

theorem answer_aside (id : TaskId) (call : Call) : Aside world (answer id call world).2 := by
  cases call with
  | resumeOwn signal => exact deliver_aside world _ id signal
  | resumeOwnLater delay => exact submit_aside world _ _
  | wakeParked signal =>
      rw [answer]
      split
      · exact .refl world
      · have unparked : Aside world { world with parked := none } := .unseen rfl rfl rfl rfl
        exact unparked.trans (deliver_aside _ _ _ signal)
  | wake name signal =>
      rw [answer]
      split
      · exact .refl world
      · exact deliver_aside world _ _ signal
  | detach message => exact submit_aside world _ _
  | stop grace => exact requestStop_aside world grace
  | _ => exact .unseen rfl rfl rfl rfl

theorem switch_aside {Item : Type} (id : TaskId) (task : Task Item Call Call.Answer)
    (resume : Resume) : Aside world (task.switch (host id) resume world).2.2 :=
  Task.switch_related .refl .trans (fun call world => answer_aside world id call)
    (fun _ _ => .unseen rfl rfl rfl rfl) task resume world

theorem tellAll_aside (entries : List Entry) : Aside world (world.tellAll entries) := by
  rw [tellAll]
  induction entries generalizing world with
  | nil => exact .refl world
  | cons entry entries ih =>
      have told : Aside world (world.tell entry) := .unseen rfl rfl rfl rfl
      exact told.trans (ih _)

theorem useSocket_aside {α : Type} (id : Option SocketId) (missing : α)
    (use : Socket → List Entry × α × Socket) :
    Aside world (world.useSocket id missing use).2 := by
  unfold useSocket
  split
  · rename_i id socket _
    have used : Aside world { world with sockets := world.sockets.set id (use socket).2.2 } :=
      .unseen rfl rfl rfl rfl
    exact used.trans (tellAll_aside _ _)
  · exact .refl world

theorem awaitReady_aside (party : Party) (socket : Option SocketId) (wait : Wait) :
    Aside world (world.awaitReady party socket wait).2 := by
  unfold awaitReady
  split
  · exact .refl world
  split
  · exact .refl world
  · split
    · exact .unseen rfl rfl rfl rfl
    · split <;> exact .unseen rfl rfl rfl rfl
  · exact useSocket_aside world _ _ _
  · exact .refl world

theorem awaitTask_aside (party : Party) (socket : Option SocketId) (since : Nat) (id : TaskId)
    (wait : Wait) : Aside world (world.awaitTask party socket since id wait).2 := by
  unfold awaitTask
  split
  · exact .unseen rfl rfl rfl rfl
  unfold awaitTaskFreely
  split
  · dsimp only
    split <;> exact .unseen rfl rfl rfl rfl
  · dsimp only
    split
    · exact .unseen rfl rfl rfl rfl
    · split
      · split <;> exact .unseen rfl rfl rfl rfl
      · exact .refl world
  · have ready := awaitReady_aside world party socket wait
    dsimp only
    split
    · rename_i same
      rwa [same] at ready
    · rename_i same
      rwa [same] at ready
    · rename_i same
      rw [same] at ready
      split
      · exact ready.trans (.unseen rfl rfl rfl rfl)
      · exact ready

theorem attempt_aside {σ Item : Type} (party : Party) (socket : Option SocketId) (since : Nat)
    (action : Action Item Call Call.Answer σ) :
    Aside world (world.attempt party socket since action).2 := by
  cases action with
  | receive timeout next =>
      have used := useSocket_aside world socket (.pending none)
        (Socket.receive world.now Connection.readSize)
      simp only [attempt]
      split
      · rename_i same
        rwa [same] at used
      · rename_i same
        rw [same] at used
        split <;> exact used
  | wire ask next =>
      have used := useSocket_aside world socket (.pending none) (Socket.wire world.now since ask)
      simp only [attempt]
      split <;> rename_i same <;> rwa [same] at used
  | cork on next => exact useSocket_aside world _ _ _
  | nodelay next => exact useSocket_aside world _ _ _
  | switch id task resume next => exact switch_aside world id task resume
  | wait id wait next =>
      have waited := awaitTask_aside world party socket since id wait
      simp only [attempt]
      split <;> rename_i same <;> rwa [same] at waited
  | _ => exact .unseen rfl rfl rfl rfl

theorem advance_aside {σ Item : Type} (next : σ → Action Item Call Call.Answer σ) (party : Party)
    (socket : Option SocketId) (fuel : Nat) (moved : Bool) (since : Nat) (state : σ) :
    Aside world (world.advance next party socket fuel moved since state).2 := by
  induction fuel generalizing world moved since state with
  | zero => exact .refl world
  | succ fuel ih =>
      have attempted := attempt_aside world party socket since (next state)
      rw [advance]
      split
      · rename_i same
        rw [same] at attempted
        exact attempted.trans (ih _ _ _ _)
      · rename_i same
        rwa [same] at attempted

/-! ## A go of another activity -/

/-- The server that a world and its acceptor stand for, in a phase and between two rounds of
the reactor. -/
def server (world : World) (acceptor : Acceptor) (phase : Server.Phase) (clock connections : Nat) :
    Server ScriptedCall ScriptProgram :=
  ⟨⟨world.hub, .free, clock⟩, acceptor.departed world.departures, phase, world.now, connections⟩

theorem Aside.runs {world later : World} (aside : Aside world later) (acceptor : Acceptor)
    (phase : Server.Phase) (clock connections : Nat) :
    ∃ trace, Runs Server.Step (world.server acceptor phase clock connections) trace
      (later.server acceptor phase clock connections) := by
  obtain ⟨acts, ofHandle, run⟩ := aside.hub
  rw [server, server, aside.now, aside.departures]
  exact ⟨_, Server.runs_dispatched (run .free clock) fun act member => .handle (ofHandle act member)⟩

/-- What a phase in which a connection has ended is to the server. -/
def endingIn : Phase Call Call.Answer → List (Server.Act ScriptedCall ScriptProgram)
  | .overflowed => [.lost]
  | .closed | .broken _ => [.returned]
  | _ => []

/-- How a go of an activity ends a connection, if it does. -/
def ending (world : World) (activity : Activity) :
    List (Server.Act ScriptedCall ScriptProgram) :=
  match activity.job with
  | .connection service socket connection =>
      endingIn (world.advance (Connection.next service Peer.unix) (some activity.id)
        (some socket) patience false activity.since connection).1.state.phase
  | _ => []

theorem putBack_aside (before : Activity) (job : Job) (moved : Bool) (since : Nat)
    (wake : Option Nat) : Aside world (world.putBack before job moved since wake) :=
  .unseen rfl rfl rfl rfl

theorem retire_aside (id : ActivityId) : Aside world (world.retire id) := .unseen rfl rfl rfl rfl

/-- A connection that goes on, or that ended without giving its slot back. -/
theorem Aside.runs_around {world middle later : World} {acceptor : Acceptor}
    {phase : Server.Phase} {clock connections rest : Nat}
    {ending : List (Server.Act ScriptedCall ScriptProgram)} (first : Aside world middle)
    (ends : Runs Server.Step (middle.server acceptor phase clock connections) ending
      (later.server acceptor phase clock rest)) {last : World} (second : Aside later last) :
    ∃ before behind, Runs Server.Step (world.server acceptor phase clock connections)
      (before ++ ending ++ behind) (last.server acceptor phase clock rest) := by
  obtain ⟨before, one⟩ := first.runs acceptor phase clock connections
  obtain ⟨behind, two⟩ := second.runs acceptor phase clock rest
  exact ⟨before, behind, (one.append ends).append two⟩

/-- **A go of any activity but the acceptor is a run of the server**: handles act, and a
connection that comes to its end gives its slot back unless it overflowed. -/
theorem runActivity_runs {activity : Activity} (acceptor : Acceptor) (phase : Server.Phase)
    (clock connections : Nat)
    (other : ∀ service acceptor, activity.job ≠ .acceptor service acceptor) :
    ∃ before behind, Runs Server.Step
      (world.server acceptor phase clock (connections + (world.ending activity).length))
      (before ++ world.ending activity ++ behind)
      ((world.runActivity activity).server acceptor phase clock connections) := by
  obtain ⟨id, job, since, wake, turn⟩ := activity
  cases job with
  | resumption due task signal =>
      simp only [runActivity]
      split
      · refine Aside.runs_around (deliver_aside world Schedule.wake task signal) .here ?_
        exact .unseen rfl rfl rfl rfl
      · exact Aside.runs_around (.refl world) .here (putBack_aside world _ _ _ _ _)
  | detached task =>
      have gone := advance_aside world Detached.next (some id) none patience false since task
      refine Aside.runs_around gone .here ?_
      simp only [runActivity]
      split
      · exact retire_aside _ _
      · exact putBack_aside _ _ _ _ _ _
  | connection service socket connection =>
      have gone := advance_aside world (Connection.next service Peer.unix) (some id)
        (some socket) patience false since connection
      simp only [runActivity, ending]
      generalize world.advance (Connection.next service Peer.unix) (some id) (some socket)
        patience false since connection = done at gone
      have closed := gone.trans (useSocket_aside done.2 (some socket) ()
        fun socket => ([], (), socket.close))
      obtain ⟨⟨⟨intake, readClosed, served, stage⟩, moved, later, limit⟩, around⟩ := done
      cases stage with
      | overflowed => exact closed.runs_around (.single (.loses rfl)) (retire_aside _ _)
      | closed | broken fault =>
          exact closed.runs_around (.single (.returns rfl))
            ((wakeWhere_aside _ _).trans (retire_aside _ _))
      | _ => exact gone.runs_around .here (putBack_aside _ _ _ _ _ _)
  | acceptor service acceptor => exact absurd rfl (other service acceptor)

/-! ## A go of the acceptor -/

theorem startAction_aside (action : TimerAction ScriptedCall ScriptProgram) :
    Aside world (world.startAction action) := by
  cases action with
  | call job =>
      rw [startAction]
      split <;> exact .unseen rfl rfl rfl rfl
  | resume task => exact deliver_aside world _ task .resume
  | spawn body => exact .unseen rfl rfl rfl rfl

theorem startAll_aside (actions : List (TimerAction ScriptedCall ScriptProgram)) :
    Aside world (actions.foldl startAction world) := by
  induction actions generalizing world with
  | nil => exact .refl world
  | cons action rest ih => exact (startAction_aside world action).trans (ih _)

theorem watchdog_aside : Aside world world.watchdog := by
  rw [watchdog]
  split <;> exact .unseen rfl rfl rfl rfl

/-- The world behind what the acceptor fires at the beginning of a turn. -/
def fired (world : World) : World :=
  ({ world with departures := 0 }.fireExpired world.now).watchdog

theorem fired_aside :
    Aside { world with departures := 0, hub := (world.hub.popExpired world.now).2 } world.fired :=
  (startAll_aside _ _).trans (watchdog_aside _)

theorem server_undeparted {world : World} (undeparted : world.departures = 0)
    (acceptor : Acceptor) (phase : Server.Phase) (clock connections : Nat) :
    world.server acceptor phase clock connections =
      ⟨⟨world.hub, .free, clock⟩, acceptor, phase, world.now, connections⟩ := by
  rw [server, undeparted]
  rfl

theorem runs_deciding {clock : Nat} (acceptor : Acceptor) (connections : Nat)
    (notEarlier : clock ≤ world.now) :
    ∃ trace, Runs Server.Step (world.server acceptor .turning clock connections) trace
      ⟨⟨world.fired.hub.nextDeadline.2, .free, world.now⟩, acceptor.departed world.departures,
        .deciding world.now world.fired.hub.nextDeadline.1, world.now, connections⟩ := by
  obtain ⟨front, first⟩ := Server.runs_firing world.hub (acceptor.departed world.departures)
    clock world.now connections notEarlier
  have aside := world.fired_aside
  obtain ⟨acts, second⟩ := aside.runs (acceptor.departed world.departures) (.firing world.now)
    world.now connections
  rw [server_undeparted aside.departures, aside.now] at second
  exact ⟨_, (first.append second).next (.dispatches .looks .looks)⟩

theorem endServer_aside :
    Aside { world with hub := world.hub.close, served := true, arrivals := [] } world.endServer := by
  rw [endServer]
  generalize ({ world with hub := world.hub.close, served := true, arrivals := [] } : World) =
    closed
  induction world.arrivals generalizing closed with
  | nil => exact .refl closed
  | cons id rest ih => exact (useSocket_aside closed _ _ _).trans (ih _)

theorem apply_schedule (hub : ScriptHub) (deadline : Nat)
    (action : TimerAction ScriptedCall ScriptProgram) (ticket : Ticket) :
    (hub.apply (.schedule deadline action ticket)).1 = none := by
  rw [Hub.apply]
  split <;> rfl

/-- From here a server comes to what rounds of the acceptor result in. -/
def ComesTo (first : Server ScriptedCall ScriptProgram) :
    Option (Acceptor × Nat) × World → Prop
  | (some (acceptor, wakeAt), later) =>
      ∃ trace accepting clock connections, clock ≤ later.now ∧ Runs Server.Step first trace
        (later.server acceptor (.waiting accepting wakeAt) clock connections)
  | (none, later) =>
      later.served = true → ∃ trace last, Runs Server.Step first trace last ∧
        last.phase = .ended ∧ last.reactor.hub = later.hub

theorem ComesTo.behind {first middle : Server ScriptedCall ScriptProgram}
    {trace : List (Server.Act ScriptedCall ScriptProgram)} {result : Option (Acceptor × Nat) × World}
    (run : Runs Server.Step first trace middle) (comes : ComesTo middle result) :
    ComesTo first result := by
  obtain ⟨_ | ⟨acceptor, wakeAt⟩, later⟩ := result
  · intro served
    obtain ⟨rest, last, further, ended⟩ := comes served
    exact ⟨_, last, run.append further, ended⟩
  · obtain ⟨rest, accepting, clock, connections, notEarlier, further⟩ := comes
    exact ⟨_, accepting, clock, connections, notEarlier, run.append further⟩

theorem comesTo_wait {world : World} {first : Server ScriptedCall ScriptProgram}
    {trace : List (Server.Act ScriptedCall ScriptProgram)} {acceptor : Acceptor}
    {accepting : Bool} {wakeAt connections : Nat}
    (run : Runs Server.Step first trace ⟨⟨world.hub, .free, world.now⟩, acceptor,
      .waiting accepting wakeAt, world.now, connections⟩) (undeparted : world.departures = 0) :
    ComesTo first (some (acceptor, wakeAt), world) := by
  rw [← server_undeparted undeparted] at run
  exact ⟨trace, accepting, world.now, connections, Nat.le_refl _, run⟩

theorem comesTo_end {world : World} {first : Server ScriptedCall ScriptProgram}
    {trace : List (Server.Act ScriptedCall ScriptProgram)} {acceptor : Acceptor}
    {next : Option Nat} {now began clock connections : Nat}
    (run : Runs Server.Step first trace
      ⟨⟨world.hub, .free, clock⟩, acceptor, .deciding began next, now, connections⟩)
    (unwaiting : ∀ accepting wakeAt, acceptor.verdict began next ≠ .waiting accepting wakeAt) :
    ComesTo first (none, world.endServer) := by
  intro _
  obtain ⟨acts, ofHandle, rest⟩ := world.endServer_aside.hub
  have closed := (run.next (.ends rfl unwaiting)).next (.dispatches .closes .closes)
  exact ⟨_, _, closed.append (Server.runs_dispatched (rest .gone clock) fun act member =>
    .handle (ofHandle act member)), rfl, rfl⟩

/-- **Rounds of the acceptor are a run of the server**, until it waits or has ended. -/
theorem acceptRounds_runs (service : ScriptService) (fuel : Nat) (acceptor : Acceptor)
    (clock connections : Nat) (notEarlier : clock ≤ world.now) (unserved : world.served = false) :
    ComesTo (world.server acceptor .turning clock connections)
      (acceptRounds service fuel acceptor world) := by
  induction fuel generalizing world acceptor clock connections with
  | zero =>
      intro served
      rw [unserved] at served
      cases served
  | succ fuel ih =>
      have further : ∀ (later : World) (acceptor : Acceptor) (connections : Nat),
          later.departures = 0 → later.now = world.now → later.served = false →
            ComesTo ⟨⟨later.hub, .free, world.now⟩, acceptor, .turning, world.now, connections⟩
              (acceptRounds service fuel acceptor later) := by
        intro later acceptor connections undeparted now unserved
        have comes := ih later acceptor later.now connections (Nat.le_refl _) unserved
        rwa [server_undeparted undeparted, now] at comes
      obtain ⟨trace, run⟩ := runs_deciding world acceptor connections notEarlier
      have aside := world.fired_aside
      have now : world.fired.now = world.now := aside.now
      have undeparted : world.fired.departures = 0 := aside.departures
      have still : world.fired.served = false := aside.served.trans unserved
      rw [acceptRounds]
      simp only [← fired.eq_def, now]
      split
      · rename_i verdict
        exact comesTo_end run (by simp [verdict])
      · rename_i openConnections verdict
        exact comesTo_end run (by simp [verdict])
      · rename_i accepting wakeAt verdict
        have waits := run.next (.waits rfl verdict)
        split
        · rename_i socket rest arrived
          cases accepting with
          | false => cases arrived
          | true =>
              refine ComesTo.behind (waits.next (.accepts rfl)) ?_
              refine further _ _ _ ?_ ?_ ?_
              · exact undeparted
              · rfl
              · exact still
        · split
          · rename_i command hub received
            refine ComesTo.behind (waits.next (.applies rfl (.applies received))) ?_
            cases command with
            | schedule deadline action ticket =>
                rw [apply_schedule]
                refine further _ _ _ ?_ ?_ ?_
                · exact undeparted
                · rfl
                · exact still
            | stop grace =>
                refine further _ _ _ ?_ ?_ ?_
                · exact undeparted
                · rfl
                · exact still
          · exact comesTo_wait waits undeparted

end Simulation.World

end EmbeddedHttp
