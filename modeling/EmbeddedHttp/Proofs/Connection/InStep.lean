/-
# EmbeddedHttp.Proofs.Connection.InStep -- queue and parser stay in step

A connection reads, takes requests up and stops reading; the queue and the parser stay in
step all the while, and an error that is recorded lands on the message that caused it
(`Connection.Run.queue_in_step`).

What is heard is recorded at once, but for a fault of reading that is told of first: until
then the connection is as it was before the fault (`Connection.Holds`).
-/
import EmbeddedHttp.Proofs.Connection.Order
import EmbeddedHttp.Proofs.Request.Blame

namespace EmbeddedHttp

set_option autoImplicit false

open Intake (AllReady FrontReady Reads hearAll)

/-! ## Between messages -/

namespace Intake

variable {limits : Limits} {heard : List Received} {taken : List Request} {intake : Intake}
  {closed : Bool} {received : Received}

/-- Without octets, nothing changes between messages. -/
theorem hear_idle (limits : Limits) (idle : intake.parser.isIdle = true)
    (nothing : ∀ b rest, received ≠ .data (b :: rest)) :
    hear limits intake received = intake := by
  have cut : ∀ status, intake.cutShort status = intake := by
    intro status
    rw [cutShort, if_pos idle]
  cases received with
  | timedOut | failed fault => exact cut _
  | data bytes =>
      cases bytes with
      | nil => exact cut _
      | cons b rest => exact absurd rfl (nothing b rest)

theorem Reads.idle (reads : Reads limits heard taken intake closed)
    (idle : intake.parser.isIdle = true) (nothing : ∀ b rest, received ≠ .data (b :: rest)) :
    Reads limits (heard ++ [received]) taken intake closed ∧
      hearAll limits (heard ++ [received]) = hearAll limits heard := by
  have same : hearAll limits (heard ++ [received]) = hearAll limits heard := by
    rw [hearAll_append]
    exact hear_idle limits (by rw [reads.parser]; exact idle) nothing
  constructor
  · exact ⟨by rw [same]; exact reads.behind, by rw [same]; exact reads.parser, reads.ready,
      reads.front, reads.reading⟩
  · exact same

/-- Inside a message, that nothing more comes is an error of the message. -/
theorem hear_lapse (limits : Limits) (nothing : ∀ b rest, received ≠ .data (b :: rest)) :
    hear limits intake received = intake.cutShort (Intake.lapse received) := by
  cases received with
  | timedOut | failed fault => rfl
  | data bytes =>
      cases bytes with
      | nil => rfl
      | cons b rest => exact absurd rfl (nothing b rest)

end Intake

namespace RequestQueue

variable {taken : List Request} {whole rest : RequestQueue}

/-- What holds of all requests that arrived holds of those that are left, if it does not
concern interim answers. -/
theorem Behind.all {p : Request → Prop} (behind : Behind taken whole rest)
    (blind : ∀ request : Request, p request.settled ↔ p request)
    (all : ∀ request ∈ whole.items, p request) : ∀ request ∈ rest.items, p request := by
  intro request member
  have there : request.settled ∈ whole.items.map Request.settled := by
    rw [behind]
    exact List.mem_append_right _ (List.mem_map_of_mem member)
  obtain ⟨arrived, memberThere, same⟩ := List.mem_map.1 there
  have settled : p arrived.settled := (blind arrived).2 (all arrived memberThere)
  rw [same] at settled
  exact (blind request).1 settled

/-- Without the last request as well. -/
theorem Behind.dropLast (behind : Behind taken whole rest) (some : rest.items ≠ []) :
    Behind taken ⟨whole.items.dropLast⟩ ⟨rest.items.dropLast⟩ := by
  have cut := congrArg List.dropLast behind
  rw [List.dropLast_append_of_ne_nil (by simpa using some)] at cut
  rw [Behind, List.map_dropLast, List.map_dropLast, cut]

end RequestQueue

variable {Call : Type} {Answer : Call → Type} {service : Service Call Answer} {peer : Peer}
  {connection after : Connection Call Answer} {deed : Deed} {deeds : List Deed}
  {heard : List Received} {taken : List Request}

namespace Connection

/-! ## In step -/

/-- Queue and parser are in step: every request but the last is ready.  While more is read,
the parser is idle exactly when all of them are, and otherwise the last one is being
received; once no more is read, all of them are.  Only the last may carry an error. -/
structure QueueInStep (connection : Connection Call Answer) : Prop where
  front : FrontReady connection.intake.queue
  idle : connection.readClosed = false →
    (connection.intake.parser.isIdle = true ↔ AllReady connection.intake.queue)
  receiving : connection.readClosed = false → connection.intake.parser.isIdle = false →
    ∃ front last, connection.intake.queue = front.push last ∧ AllReady front ∧
      connection.intake.queue.inProgress? = some last
  shut : connection.readClosed = true → AllReady connection.intake.queue
  blamed : ∀ request ∈ connection.intake.queue.items.dropLast, request.failure = none

theorem queueInStep
    (reads : Reads service.limits heard taken connection.intake connection.readClosed)
    (synced : (hearAll service.limits heard).Synced connection.readClosed) :
    connection.QueueInStep := by
  -- while more is read the parser is idle, or it is inside the last message of the queue
  have reading : connection.readClosed = false →
      connection.intake.parser.isIdle = true ∧ AllReady connection.intake.queue ∨
        connection.intake.parser.isIdle = false ∧ Intake.LastOpen connection.intake.queue := by
    intro isOpen
    obtain ⟨inStep, plain, -⟩ := reads.reading isOpen
    obtain ⟨-, -, sound, -⟩ := synced.reading isOpen
    rw [reads.parser] at sound
    rw [Intake.InStep] at inStep
    cases parser : connection.intake.parser with
    | idle =>
        rw [parser] at inStep
        exact .inl ⟨rfl, inStep⟩
    | head _ _ | body _ | chunked _ =>
        rw [parser] at inStep
        exact .inr ⟨rfl, inStep⟩
    | upgraded => exact absurd parser plain
    | failed => exact absurd parser sound
  refine ⟨reads.front, ?_, ?_, ?_, ?_⟩
  · intro isOpen
    rcases reading isOpen with ⟨idle, all⟩ | ⟨inside, front, last, same, -, unready⟩
    · exact ⟨fun _ => all, fun _ => idle⟩
    · constructor
      · intro idle
        rw [inside] at idle
        cases idle
      · intro all
        have ready := all last (by rw [same]; simp [RequestQueue.push])
        rw [unready] at ready
        cases ready
  · intro isOpen inside
    rcases reading isOpen with ⟨idle, -⟩ | ⟨-, front, last, same, all, unready⟩
    · rw [inside] at idle
      cases idle
    · refine ⟨front, last, same, all, ?_⟩
      rw [same, RequestQueue.inProgress?, RequestQueue.getLast?_push]
      simp [Option.filter, unready]
  · intro shut
    exact reads.behind.all (fun request => by rw [Request.settled_isReady]) (synced.shut shut)
  · by_cases some : connection.intake.queue.items = []
    · rw [some]
      intro request member
      cases member
    · have fronts := reads.behind.dropLast some
      exact fronts.all (p := fun request => request.failure = none) (fun _ => Iff.rfl)
        fun request member => (synced.front request member).2

/-! ## What a connection holds of what was heard -/

/-- Is everything that was heard recorded? -/
def isRecorded (connection : Connection Call Answer) : Bool :=
  match connection.phase with
  | .tellingReadFault _ _ => false
  | _ => true

/-- The connection holds what is left of the requests that arrived.  A fault of reading is
told of before it is recorded. -/
inductive Holds (service : Service Call Answer) (heard : List Received)
    (connection : Connection Call Answer) : Prop where
  | recorded (taken : List Request) (phase : connection.isRecorded = true)
      (reads : Reads service.limits heard taken connection.intake connection.readClosed)
      (synced : (hearAll service.limits heard).Synced connection.readClosed)
  | telling (earlier : List Received) (fault : IoFault) (idle : Bool) (taken : List Request)
      (phase : connection.phase = .tellingReadFault fault idle)
      (same : heard = earlier ++ [.failed fault])
      (isOpen : connection.readClosed = false)
      (between : idle = connection.intake.parser.isIdle)
      (reads : Reads service.limits earlier taken connection.intake false)
      (synced : (hearAll service.limits earlier).Synced false)

theorem look_recorded (service : Service Call Answer) (connection : Connection Call Answer) :
    (connection.look service).isRecorded = true := by
  rw [look]
  split
  · split <;> rfl
  · split
    · rw [dispatch]
      split
      · rfl
      · split <;> rfl
    · split
      · rfl
      · split <;> rfl

/-- Looking at the queue takes at most the first request. -/
theorem Holds.look
    (reads : Reads service.limits heard taken connection.intake connection.readClosed)
    (synced : (hearAll service.limits heard).Synced connection.readClosed) :
    Holds service heard (connection.look service) := by
  have kept : (∃ later, Reads service.limits heard later (connection.look service).intake
      connection.readClosed) ∧
        (connection.look service).readClosed = connection.readClosed := by
    cases items : connection.intake.queue.items with
    | nil =>
        simp only [Connection.look, items]
        split <;> exact ⟨⟨taken, reads⟩, rfl⟩
    | cons request rest =>
        simp only [Connection.look, items]
        split
        · rename_i ready
          have took := reads.take items ready
          rw [dispatch]
          split
          · exact ⟨⟨_, took⟩, rfl⟩
          · split <;> exact ⟨⟨_, took⟩, rfl⟩
        · split
          · exact ⟨⟨taken, reads⟩, rfl⟩
          · rename_i goesOn
            have isOpen := Bool.eq_false_iff.2 goesOn
            split
            · have readsOn := reads
              rw [isOpen] at readsOn
              have told := readsOn.settleFirst items
              rw [← isOpen] at told
              exact ⟨⟨taken, told⟩, rfl⟩
            · exact ⟨⟨taken, reads⟩, rfl⟩
  obtain ⟨⟨later, still⟩, closed⟩ := kept
  exact .recorded later (look_recorded service connection) (by rw [closed]; exact still)
    (by rw [closed]; exact synced)

/-- Reading gave nothing more. -/
theorem Holds.cutShort {received : Received} {idle : Bool}
    (reads : Reads service.limits heard taken connection.intake connection.readClosed)
    (synced : (hearAll service.limits heard).Synced connection.readClosed)
    (isOpen : connection.readClosed = false) (between : idle = connection.intake.parser.isIdle)
    (nothing : ∀ b rest, received ≠ .data (b :: rest)) :
    Holds service (heard ++ [received])
      (if idle then connection.leave
       else (connection.closeReading (Intake.lapse received)).look service) := by
  cases idle with
  | true =>
      obtain ⟨still, same⟩ := reads.idle between.symm nothing
      exact .recorded taken rfl still (by rw [same]; exact synced)
  | false =>
      rw [isOpen] at reads synced
      have cut : connection.intake.cutShort (Intake.lapse received) =
          (connection.closeReading (Intake.lapse received)).intake := by
        rw [Intake.cutShort, ← between]
        rfl
      have lapsed := reads.lapse received nothing
      rw [cut] at lapsed
      refine .look lapsed ?_
      rw [Intake.hearAll_append, Intake.hear_lapse service.limits nothing]
      exact synced.cutShort _

/-- Octets came. -/
theorem Holds.absorb (reads : Reads service.limits heard taken connection.intake false)
    (synced : (hearAll service.limits heard).Synced false)
    (isOpen : connection.readClosed = false) (b : UInt8) (rest : Bytes) :
    Holds service (heard ++ [.data (b :: rest)]) (connection.absorb service (b :: rest)) := by
  obtain ⟨inStep, plain, -⟩ := reads.reading rfl
  obtain ⟨result, parser, -⟩ :=
    Intake.feed_behind service.limits reads.behind reads.parser reads.ready inStep plain
      (b :: rest)
  -- reading ends with a fault or an upgrade, and neither depends on what was taken
  have holds : ∀ (stopped : Bool), (stopped = true ↔
        (∃ fault, (connection.intake.feed service.limits (b :: rest)).result = .error fault) ∨
          (connection.intake.feed service.limits (b :: rest)).intake.parser = .upgraded) →
      Reads service.limits (heard ++ [.data (b :: rest)]) taken
          (connection.intake.feed service.limits (b :: rest)).intake stopped ∧
        (hearAll service.limits (heard ++ [.data (b :: rest)])).Synced stopped := by
    intro stopped stops
    constructor
    · refine reads.feed b rest stopped fun upgraded => stops.2 (.inr ?_)
      cases seen : (connection.intake.feed service.limits (b :: rest)).intake.parser with
      | upgraded => rfl
      | _ =>
          rw [seen] at upgraded
          cases upgraded
    · rw [Intake.hearAll_append]
      refine synced.feed (b :: rest) ?_
      rw [result, parser]
      exact stops
  rw [Connection.absorb, isOpen]
  cases fed : (connection.intake.feed service.limits (b :: rest)).result with
  | error fault =>
      obtain ⟨still, both⟩ := holds true (by simp [fed])
      cases fault with
      | refused refusal =>
          cases refusal with
          | overflow => exact .recorded taken rfl still both
          | _ => exact .look still both
      | _ => exact .look still both
  | ok n =>
      obtain ⟨still, both⟩ := holds
        (connection.intake.feed service.limits (b :: rest)).intake.parser.isUpgraded (by
          cases (connection.intake.feed service.limits (b :: rest)).intake.parser <;>
            simp [fed, Parser.isUpgraded])
      exact .look still both

/-- Whatever reading gave. -/
theorem holds_received {idle : Bool}
    (reads : Reads service.limits heard taken connection.intake connection.readClosed)
    (synced : (hearAll service.limits heard).Synced connection.readClosed)
    (isOpen : connection.readClosed = false) (between : idle = connection.intake.parser.isIdle)
    (received : Received) :
    Holds service (heard ++ [received]) (connection.afterReceive service idle received) := by
  have nothing : (∀ b rest, received ≠ .data (b :: rest)) →
      Holds service (heard ++ [received])
        (if idle then connection.leave
         else (connection.closeReading (Intake.lapse received)).look service) :=
    fun nothing => .cutShort reads synced isOpen between nothing
  cases received with
  | timedOut => exact nothing fun _ _ same => by cases same
  | failed fault =>
      simp only [afterReceive]
      split
      · exact nothing fun _ _ same => by cases same
      · rw [isOpen] at reads synced
        exact .telling heard fault idle taken rfl rfl isOpen between reads synced
  | data bytes =>
      cases bytes with
      | cons b rest =>
          rw [isOpen] at reads synced
          exact .absorb reads synced isOpen b rest
      | nil =>
          have lapsed := nothing fun _ _ same => by cases same
          cases idle with
          | false => exact lapsed
          | true =>
              -- the end of the stream between messages leaves the queue to be answered
              rw [isOpen] at reads synced
              have ended := reads.lapse (.data []) fun _ _ same => by cases same
              rw [Intake.cutShort, if_pos between.symm] at ended
              refine .look ended ?_
              rw [Intake.hearAll_append]
              exact synced.cutShort _

/-! ## Steps that read nothing -/

/-- The connection reads, or will read on behind an interim answer. -/
def isReading (connection : Connection Call Answer) : Bool :=
  match connection.phase with
  | .receiving _ | .tellingReadFault _ _ | .writing _ .interimWhileReading => true
  | _ => false

/-- A step leaves what was read alone, or looks at the queue; only by looking at the queue a
connection comes to read again. -/
inductive Quiet (service : Service Call Answer) (connection after : Connection Call Answer) :
    Prop where
  | same (intake : after.intake = connection.intake)
      (closed : after.readClosed = connection.readClosed) (recorded : after.isRecorded = true)
      (reads : after.isReading = true → connection.isReading = true)
  | looks (other : Connection Call Answer) (intake : other.intake = connection.intake)
      (closed : other.readClosed = connection.readClosed) (looks : after = other.look service)

/-- The connection does not read. -/
theorem Quiet.unread (intake : after.intake = connection.intake)
    (closed : after.readClosed = connection.readClosed) (recorded : after.isRecorded = true)
    (unread : after.isReading = false) : Quiet service connection after := by
  refine .same intake closed recorded fun reads => ?_
  rw [unread] at reads
  cases reads

theorem quiet_afterWriting {flush : Flush} {purpose : Purpose Call Answer}
    (phase : connection.phase = .writing flush purpose) (service : Service Call Answer)
    (sent : Nat) (fault : Option IoFault) :
    Quiet service connection (connection.afterWriting service sent purpose fault) := by
  cases purpose with
  | interimWhileReading =>
      have reading : connection.isReading = true := by rw [isReading, phase]
      cases fault <;> exact .same rfl rfl rfl fun _ => reading
  | fileHead exchange body =>
      cases fault with
      | some fault => exact .unread rfl rfl rfl rfl
      | none =>
          simp only [afterWriting, sendFile]
          split <;> exact .unread rfl rfl rfl rfl
  | _ => cases fault <;> exact .unread rfl rfl rfl rfl

theorem quiet_takeEmit (service : Service Call Answer) (connection : Connection Call Answer)
    (exchange : Exchange Call Answer) (emit : Emit) :
    Quiet service connection (connection.takeEmit service exchange emit) := by
  cases emit with
  | chunk data =>
      simp only [takeEmit, drain]
      split <;> exact .unread rfl rfl rfl rfl
  | _ => exact .unread rfl rfl rfl rfl

theorem quiet_writeHead (service : Service Call Answer) (connection : Connection Call Answer)
    (exchange : Exchange Call Answer) (emit : Emit) (date : Bytes) :
    Quiet service connection (connection.writeHead service exchange emit date) := by
  cases emit with
  | chunk data => exact quiet_takeEmit service connection exchange (.chunk data)
  | file head body => exact .unread rfl rfl rfl rfl
  | head head first length => cases first <;> exact .unread rfl rfl rfl rfl

theorem quiet_afterSwitch (service : Service Call Answer) (connection : Connection Call Answer)
    (exchange : Exchange Call Answer) (step : Step Emit) (task : Task Emit Call Answer) :
    Quiet service connection (connection.afterSwitch service exchange step task) := by
  cases step with
  | suspended wait => exact .unread rfl rfl rfl rfl
  | yielded emit => exact quiet_takeEmit service connection _ emit
  | failed error => exact .unread rfl rfl rfl rfl
  | completed =>
      simp only [afterSwitch, finishBody]
      split
      · exact .unread rfl rfl rfl rfl
      · split <;> exact .unread rfl rfl rfl rfl

theorem quiet_afterAnswer {other : Connection Call Answer} (service : Service Call Answer)
    (exchange : Exchange Call Answer) (intake : other.intake = connection.intake)
    (closed : other.readClosed = connection.readClosed) :
    Quiet service connection (other.afterAnswer service exchange) := by
  rw [afterAnswer]
  split
  · exact .unread intake closed rfl rfl
  · exact .looks other intake closed rfl

theorem quiet_afterPage (service : Service Call Answer) (connection : Connection Call Answer)
    (remote : String) (status : Status) (facts : Option Facts) (size : Nat) :
    Quiet service connection (connection.afterPage service remote status facts size) := by
  simp only [afterPage]
  split
  · split <;> exact .unread rfl rfl rfl rfl
  · split <;> exact .unread rfl rfl rfl rfl

/-- Only what is heard changes what was read. -/
theorem moves_quiet (reads : ∀ idle, connection.phase ≠ .receiving idle)
    (recorded : connection.isRecorded = true)
    (moved : connection.Moves service peer deed after) :
    Deed.heardIn [deed] = [] ∧ Quiet service connection after := by
  cases phase : connection.phase with
  | receiving idle => exact absurd phase (reads idle)
  | tellingReadFault fault idle =>
      rw [isRecorded, phase] at recorded
      cases recorded
  | writing flush purpose =>
      rcases moves_writing phase moved with
        ⟨later, octets, turn, -, -, rfl⟩ | ⟨fault, rfl, rfl⟩
      · constructor
        · rcases turn with ⟨rfl, -⟩ | ⟨rfl, -⟩ <;> rfl
        · split
          · exact quiet_afterWriting phase service _ _
          · refine .same rfl rfl rfl fun reads => ?_
            rw [isReading, phase]
            cases purpose <;> first | rfl | cases reads
      · exact ⟨rfl, quiet_afterWriting phase service _ _⟩
  | spawning request =>
      rcases moves_spawning phase moved with ⟨rfl, id, rfl⟩ | ⟨rfl, fault, rfl⟩
      · exact ⟨rfl, .unread rfl rfl rfl rfl⟩
      · exact ⟨rfl, .unread rfl rfl rfl rfl⟩
  | tellingUnstarted facts fault =>
      obtain ⟨rfl, rfl⟩ := moves_tellingUnstarted phase moved
      exact ⟨rfl, .unread rfl rfl rfl rfl⟩
  | switching exchange resume =>
      obtain ⟨σ, host, before, later, step, task, -, rfl, rfl⟩ := moves_switching phase moved
      exact ⟨rfl, quiet_afterSwitch _ _ _ _ _⟩
  | waiting exchange wait =>
      obtain ⟨outcome, rfl, rfl⟩ := moves_waiting phase moved
      exact ⟨rfl, .unread rfl rfl rfl rfl⟩
  | corking exchange emit =>
      obtain ⟨rfl, rfl⟩ := moves_corking phase moved
      exact ⟨rfl, .unread rfl rfl rfl rfl⟩
  | dating exchange emit =>
      obtain ⟨date, rfl, rfl⟩ := moves_dating phase moved
      exact ⟨rfl, quiet_writeHead _ _ _ _ _⟩
  | sendingFile exchange transfer =>
      rcases moves_sendingFile phase moved with
        ⟨n, rfl, -, -, -, rfl⟩ | ⟨rfl, rfl⟩ | ⟨blocked, rfl, rfl⟩ | ⟨rfl, rfl⟩
      · refine ⟨rfl, ?_⟩
        dsimp only
        split <;> exact .unread rfl rfl rfl rfl
      · exact ⟨rfl, .unread rfl rfl rfl rfl⟩
      · refine ⟨rfl, ?_⟩
        split <;> exact .unread rfl rfl rfl rfl
      · exact ⟨rfl, .unread rfl rfl rfl rfl⟩
  | uncorking exchange =>
      obtain ⟨rfl, rfl⟩ := moves_uncorking phase moved
      refine ⟨rfl, ?_⟩
      split
      · exact .unread rfl rfl rfl rfl
      · exact quiet_afterAnswer service exchange rfl rfl
  | tellingAccess exchange =>
      obtain ⟨rfl, rfl⟩ := moves_tellingAccess phase moved
      exact ⟨rfl, quiet_afterAnswer service exchange rfl rfl⟩
  | tellingFailure exchange error =>
      obtain ⟨rfl, rfl⟩ := moves_tellingFailure phase moved
      refine ⟨rfl, ?_⟩
      rw [afterFailure]
      split <;> exact .unread rfl rfl rfl rfl
  | uncorkingPage status facts size =>
      simp only [Moves, next, phase] at moved
      cases moved with
      | corked => exact ⟨rfl, quiet_afterPage _ _ _ _ _ _⟩
  | tellingPage notice =>
      simp only [Moves, next, phase] at moved
      cases moved with
      | told => exact ⟨rfl, .unread rfl rfl rfl rfl⟩
  | leaving =>
      simp only [Moves, next, phase] at moved
      cases moved with
      | corked => exact ⟨rfl, .unread rfl rfl rfl rfl⟩
  | hurrying =>
      simp only [Moves, next, phase] at moved
      cases moved with
      | nodelay => exact ⟨rfl, .unread rfl rfl rfl rfl⟩
  | closed | broken _ | overflowed =>
      simp only [Moves, next, phase] at moved
      cases moved

/-! ## What was read to its end -/

/-- At most the first request was taken, and every other one that was read to its end
without an error is still there, without an error. -/
def KeepsIntact (connection after : Connection Call Answer) : Prop :=
  ∃ taken ≤ 1, ∀ (i : Nat) (request : Request),
    connection.intake.queue.items[taken + i]? = some request → request.Intact →
      ∃ later, after.intake.queue.items[i]? = some later ∧ later.Intact

theorem keepsIntact_same (intake : after.intake = connection.intake) :
    connection.KeepsIntact after := by
  refine ⟨0, Nat.zero_le 1, fun i request found intact => ⟨request, ?_, intact⟩⟩
  rw [intake]
  rwa [Nat.zero_add] at found

theorem keepsIntact_look (service : Service Call Answer) (connection : Connection Call Answer) :
    connection.KeepsIntact (connection.look service) := by
  have others : ∀ {request : Request} {rest : List Request},
      connection.intake.queue.items = request :: rest →
      ∀ {later : Connection Call Answer}, later.intake.queue.items = rest →
        connection.KeepsIntact later := by
    intro request rest items later taken
    refine ⟨1, Nat.le_refl 1, fun i other found intact => ⟨other, ?_, intact⟩⟩
    rw [taken]
    rwa [items, Nat.add_comm, List.getElem?_cons_succ] at found
  cases items : connection.intake.queue.items with
  | nil =>
      simp only [look, items]
      split <;> exact keepsIntact_same rfl
  | cons request rest =>
      simp only [look, items]
      split
      · rw [dispatch]
        split
        · exact others items rfl
        · split <;> exact others items rfl
      · split
        · exact keepsIntact_same rfl
        · split
          · -- telling the first request to go on leaves it otherwise alone
            refine ⟨0, Nat.zero_le 1, fun i other found intact => ?_⟩
            rw [Nat.zero_add, items] at found
            cases i with
            | zero =>
                obtain rfl := Option.some.inj found
                exact ⟨_, rfl, intact⟩
            | succ i => exact ⟨other, found, intact⟩
          · exact keepsIntact_same rfl

/-- What is recorded first, and then looked at. -/
theorem KeepsIntact.behind {between : Connection Call Answer}
    (recorded : ∀ (i : Nat) (request : Request),
      connection.intake.queue.items[i]? = some request → request.Intact →
        ∃ later, between.intake.queue.items[i]? = some later ∧ later.Intact)
    (keeps : between.KeepsIntact after) : connection.KeepsIntact after := by
  obtain ⟨taken, atMost, keeps⟩ := keeps
  refine ⟨taken, atMost, fun i request found intact => ?_⟩
  obtain ⟨later, there, still⟩ := recorded (taken + i) request found intact
  exact keeps i later there still

theorem keepsIntact_closeReading (service : Service Call Answer)
    (connection : Connection Call Answer) (status : Status) :
    connection.KeepsIntact ((connection.closeReading status).look service) :=
  .behind (fun _ request found intact =>
    ⟨request, RequestQueue.recordFailure_intact found intact status, intact⟩)
    (keepsIntact_look service _)

theorem keepsIntact_absorb (service : Service Call Answer) (connection : Connection Call Answer)
    (b : UInt8) (rest : Bytes) :
    connection.KeepsIntact (connection.absorb service (b :: rest)) := by
  have fed : ∀ {between : Connection Call Answer},
      between.intake = (connection.intake.feed service.limits (b :: rest)).intake →
      ∀ (i : Nat) (request : Request),
        connection.intake.queue.items[i]? = some request → request.Intact →
          ∃ later, between.intake.queue.items[i]? = some later ∧ later.Intact := by
    intro between same i request found intact
    rw [same]
    exact Intake.hear_intact service.limits found intact (.data (b :: rest))
  rw [absorb]
  split
  · exact .behind (fed rfl) (keepsIntact_same rfl)
  · exact .behind (fed rfl) (keepsIntact_look service _)

theorem keepsIntact_received (service : Service Call Answer) (connection : Connection Call Answer)
    (idle : Bool) (received : Received) :
    connection.KeepsIntact (connection.afterReceive service idle received) := by
  have cut : ∀ status, connection.KeepsIntact
      (if idle then connection.leave else (connection.closeReading status).look service) := by
    intro status
    split
    · exact keepsIntact_same rfl
    · exact keepsIntact_closeReading service connection status
  cases received with
  | timedOut => exact cut _
  | failed fault =>
      simp only [afterReceive]
      split
      · exact cut _
      · exact keepsIntact_same rfl
  | data bytes =>
      cases bytes with
      | cons b rest => exact keepsIntact_absorb service connection b rest
      | nil =>
          simp only [afterReceive]
          split
          · exact .behind (fun _ request found intact => ⟨request, found, intact⟩)
              (keepsIntact_look service { connection with readClosed := true })
          · exact keepsIntact_closeReading service connection _

/-- **No step changes what was read to its end without an error.** -/
theorem keepsIntact (moved : connection.Moves service peer deed after) :
    connection.KeepsIntact after := by
  by_cases receiving : ∃ idle, connection.phase = .receiving idle
  · obtain ⟨idle, phase⟩ := receiving
    obtain ⟨received, -, rfl⟩ := moves_receiving phase moved
    exact keepsIntact_received service connection idle received
  · cases recorded : connection.isRecorded with
    | true =>
        obtain ⟨-, leads⟩ := moves_quiet (fun idle phase => receiving ⟨idle, phase⟩) recorded moved
        cases leads with
        | same intake closed still reads => exact keepsIntact_same intake
        | looks other intake closed looks =>
            rw [looks]
            exact .behind
              (fun _ request found intact => ⟨request, by rw [intake]; exact found, intact⟩)
              (keepsIntact_look service other)
    | false =>
        cases phase : connection.phase with
        | tellingReadFault fault idle =>
            obtain ⟨-, rfl⟩ := moves_tellingReadFault phase moved
            split
            · exact keepsIntact_same rfl
            · exact keepsIntact_closeReading service connection _
        | _ => simp [isRecorded, phase] at recorded

/-! ## Runs -/

namespace Run

/-- A connection that reads has not stopped reading, and knows whether it is between
messages. -/
theorem receives (run : Run service peer deeds connection) {idle : Bool}
    (phase : connection.phase = .receiving idle) :
    connection.readClosed = false ∧ idle = connection.intake.parser.isIdle := by
  cases run.stands.1 with
  | between taken reads settled starts waits =>
      simp only [Waits, phase] at waits
      exact waits.2
  | answering taken before account reads same settled interim starts answers =>
      rw [phase] at answers
      cases answers
  | leaving isLast sound starts =>
      rw [phase] at isLast
      cases isLast

/-- **Every run leaves the connection with the rest of the requests that arrived.** -/
theorem holds (run : Run service peer deeds connection) :
    Holds service (Deed.heardIn deeds) connection := by
  induction run with
  | opened => exact .recorded [] rfl (Reads.opened _) Intake.synced_opened
  | @step deeds connection after deed before moved ih =>
      have heard : Deed.heardIn (deeds ++ [deed]) = Deed.heardIn deeds ++ Deed.heardIn [deed] := by
        rw [Deed.heardIn, List.filterMap_append]
        rfl
      rw [heard]
      cases ih with
      | telling earlier fault idle taken phase same isOpen between reads synced =>
          obtain ⟨rfl, rfl⟩ := moves_tellingReadFault phase moved
          rw [same, Deed.heardIn_quiet (fun _ same => by cases same), List.append_nil]
          have nothing : ∀ b rest, Received.failed fault ≠ .data (b :: rest) :=
            fun _ _ same => by cases same
          exact .cutShort (by rw [isOpen]; exact reads) (by rw [isOpen]; exact synced) isOpen
            between nothing
      | recorded taken recorded reads synced =>
          by_cases receiving : ∃ idle, connection.phase = .receiving idle
          · obtain ⟨idle, phase⟩ := receiving
            obtain ⟨received, rfl, rfl⟩ := moves_receiving phase moved
            obtain ⟨isOpen, between⟩ := before.receives phase
            exact holds_received reads synced isOpen between received
          · obtain ⟨quiet, leads⟩ :=
              moves_quiet (fun idle phase => receiving ⟨idle, phase⟩) recorded moved
            rw [quiet, List.append_nil]
            cases leads with
            | same intake closed still =>
                exact .recorded taken still (by rw [intake, closed]; exact reads)
                  (by rw [closed]; exact synced)
            | looks other intake closed looks =>
                rw [looks]
                exact .look (by rw [intake, closed]; exact reads) (by rw [closed]; exact synced)

/-- Whom an error concerns does not depend on the requests that were taken. -/
theorem blames (run : Run service peer deeds connection) {idle : Bool}
    (phase : connection.phase = .receiving idle) (received : Received) :
    (hearAll service.limits (Deed.heardIn deeds ++ [received])).queue.Blames
      (Intake.blame? service.limits connection.intake received) := by
  obtain ⟨isOpen, -⟩ := run.receives phase
  cases run.holds with
  | telling _ _ _ _ other =>
      rw [phase] at other
      cases other
  | recorded taken _ reads synced =>
      rw [isOpen] at reads synced
      obtain ⟨inStep, plain, -⟩ := reads.reading rfl
      have same : Intake.blame? service.limits (hearAll service.limits (Deed.heardIn deeds))
            received = Intake.blame? service.limits connection.intake received := by
        have lapsed : ∀ status : Status,
            (if (hearAll service.limits (Deed.heardIn deeds)).parser.isIdle then none
              else some status) =
              if connection.intake.parser.isIdle then none else some status := by
          intro status
          rw [reads.parser]
        cases received with
        | timedOut | failed fault => exact lapsed _
        | data bytes =>
            cases bytes with
            | nil => exact lapsed _
            | cons b rest =>
                obtain ⟨result, -⟩ := Intake.feed_behind service.limits reads.behind reads.parser
                  reads.ready inStep plain (b :: rest)
                simp only [Intake.blame?, result]
      rw [Intake.hearAll_append, ← same]
      exact Intake.hear_blames service.limits synced received

/-- **Queue and parser stay in step, and errors land on the message that caused them.**  In
every run, whatever was read, however reading failed and whatever was answered meanwhile:
the queue is in step with the parser (`QueueInStep`).  It is what is left of the requests
that arrived, in order.  No step changes a request that was read to its end without an
error, but for taking the first one.  When reading gives something for which a message is
to be blamed, its request is the last one that arrived and carries the status, and all
before it carry none. -/
theorem queue_in_step (run : Run service peer deeds connection) :
    connection.QueueInStep ∧
      (∃ taken, RequestQueue.Behind taken
        (hearAll service.limits (Deed.heardIn deeds)).queue connection.reading.1.queue) ∧
      (∀ deed after, connection.Moves service peer deed after → connection.KeepsIntact after) ∧
      ∀ idle received, connection.phase = .receiving idle →
        (hearAll service.limits (Deed.heardIn deeds ++ [received])).queue.Blames
          (Intake.blame? service.limits connection.intake received) := by
  refine ⟨?_, ?_, fun deed after moved => keepsIntact moved,
    fun idle received phase => run.blames phase received⟩
  · cases run.holds with
    | recorded taken _ reads synced => exact queueInStep reads synced
    | telling earlier fault idle taken _ _ isOpen _ reads synced =>
        exact queueInStep (by rw [isOpen]; exact reads) (by rw [isOpen]; exact synced)
  · cases run.holds with
    | recorded taken recorded reads synced =>
        refine ⟨taken, ?_⟩
        have same : connection.reading.1 = connection.intake := by
          rw [reading]
          split
          · rename_i phase
            simp [isRecorded, phase] at recorded
          · rfl
        rw [same]
        exact reads.behind
    | telling earlier fault idle taken phase same isOpen between reads synced =>
        have lapsed := reads.lapse (.failed fault) fun _ _ same => by cases same
        rw [← same] at lapsed
        refine ⟨taken, ?_⟩
        simp only [reading, phase]
        exact lapsed.behind

/-- Three messages are read at once, the last of which declares no proper length: its request
is the last one and carries the status, and the two before it are intact. -/
theorem third_blamed :
    let octets := Bytes.ofAscii
      "GET /1 HTTP/1.1\r\n\r\nGET /2 HTTP/1.1\r\n\r\nGET /3 HTTP/1.1\r\nContent-Length: nope\r\n\r\n"
    ∃ before last, (hearAll greeting.limits [.data octets]).queue.items = before ++ [last] ∧
      last.failure = some .badRequest ∧ ∀ request ∈ before, request.Intact := by
  intro octets
  obtain ⟨-, -, -, blames⟩ := queue_in_step (greeted_run 0 "")
  have blamed := blames true (.data octets) rfl
  have status : Intake.blame? greeting.limits (greeted 0 "").connection.intake (.data octets) =
      some .badRequest := by
    decide +kernel
  rw [status] at blamed
  exact blamed

end Run

end Connection

end EmbeddedHttp
