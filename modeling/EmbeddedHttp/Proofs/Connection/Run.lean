/-
# EmbeddedHttp.Proofs.Connection.Run -- the runs of a connection

A connection asks for one thing at a time (`Connection.next`), and everything else is
up to the outside: what is heard and when reading fails, how much a socket takes and
whether it fails, how waits end, what the code of a task calls and gets back.
`Answered` lists what the outside may answer.  A socket takes at least one octet when
it takes any, and no more than it was offered; a task runs its own code; nothing else
is assumed.

A `Run` is any sequence of such answers from the opening of the connection on.  It is
told by what can be seen of it, its deeds; the octets on the wire carry what they were
written for (`Share`).
-/
import EmbeddedHttp.Connection.Machine
import EmbeddedHttp.Proofs.Response.Cursor
import Mathlib.Data.List.Induction

namespace EmbeddedHttp

set_option autoImplicit false

/-! ## Deeds -/

/-- What octets on the wire belong to. -/
inductive Share where
  /-- The interim answer that goes before an answer. -/
  | interim
  | answer
  /-- The page for a request that carries an error. -/
  | refusal (status : Status)
  /-- The page in place of an answer whose task failed or could not be made. -/
  | apology
  deriving DecidableEq, Repr

/-- One thing that is seen of a connection. -/
inductive Deed where
  /-- Reading gave something. -/
  | heard (received : Received)
  /-- The application was called for a request. -/
  | called (request : Request)
  /-- The application was to be called for a request, but its task could not be made. -/
  | unstarted (request : Request)
  /-- The task gave control back. -/
  | switched (step : Step Emit)
  /-- A wait of the task ended. -/
  | waited (outcome : WaitOutcome)
  /-- The date of a head was told. -/
  | dated (date : Bytes)
  /-- The socket took some octets. -/
  | wrote (share : Share) (octets : Bytes)
  /-- The socket took some octets of a file. -/
  | sent (octets : Bytes)
  /-- The file gave nothing more. -/
  | fileEnded
  /-- The socket failed for good. -/
  | broke (share : Share)
  /-- Nothing that matters. -/
  | other

namespace Deed

/-- The octets that went out. -/
def octets : Deed → Bytes
  | .wrote _ octets | .sent octets => octets
  | _ => []

/-- All octets that went out, in order. -/
def written (deeds : List Deed) : Bytes := deeds.flatMap octets

/-- What reading gave, in order. -/
def heardIn (deeds : List Deed) : List Received :=
  deeds.filterMap fun
    | .heard received => some received
    | _ => none

end Deed

variable {Call : Type} {Answer : Call → Type}

/-- What an outbox is drained for. -/
def Purpose.share : Purpose Call Answer → Share
  | .interimWhileReading | .interimBefore _ => .interim
  | .piece _ _ | .fileHead _ _ | .lastChunk _ => .answer
  | .errorPage status none => .refusal status
  | .errorPage _ (some _) => .apology

namespace Connection

/-- What the octets that go out now belong to. -/
def share (connection : Connection Call Answer) : Share :=
  match connection.phase with
  | .writing _ purpose => purpose.share
  | _ => .answer

/-! ## Answers of the outside -/

/-- A write that failed with this fault is tried again. -/
def Passing (fault : IoFault) : Prop :=
  fault.isWouldBlock = true ∨ fault.isInterrupted = true

/-- What may be answered to what a connection asks for, what is seen of it, and where it
leads. -/
inductive Answered (connection : Connection Call Answer) :
    Action Emit Call Answer (Connection Call Answer) → Deed → Connection Call Answer → Prop where
  | heard {timeout : Nat} {next : Received → Connection Call Answer} (received : Received) :
      Answered connection (.receive timeout next) (.heard received) (next received)
  | wrote {slices : List Bytes} {next : WireAnswer → Connection Call Answer} {n : Nat}
      (some_octets : 0 < n) (offered : n ≤ slices.flatten.length) :
      Answered connection (.wire (.write slices) next)
        (.wrote connection.share (slices.flatten.take n)) (next (.ok n))
  | tookNothing {slices : List Bytes} {next : WireAnswer → Connection Call Answer} :
      Answered connection (.wire (.write slices) next) (.broke connection.share) (next (.ok 0))
  | writeAgain {slices : List Bytes} {next : WireAnswer → Connection Call Answer}
      {fault : IoFault} (passing : Passing fault) :
      Answered connection (.wire (.write slices) next) .other (next (.error fault))
  | writeFailed {slices : List Bytes} {next : WireAnswer → Connection Call Answer}
      {fault : IoFault} (final : ¬ Passing fault) :
      Answered connection (.wire (.write slices) next) (.broke connection.share)
        (next (.error fault))
  | writable {timeout : Nat} {next : WireAnswer → Connection Call Answer} (n : Nat) :
      Answered connection (.wire (.awaitWritable timeout) next) .other (next (.ok n))
  | notWritable {timeout : Nat} {next : WireAnswer → Connection Call Answer} (fault : IoFault) :
      Answered connection (.wire (.awaitWritable timeout) next) (.broke connection.share)
        (next (.error fault))
  | sent {content : Bytes} {offset count : Nat} {next : WireAnswer → Connection Call Answer}
      {n : Nat} (some_octets : 0 < n) (asked : n ≤ count)
      (present : n ≤ (content.drop offset).length) :
      Answered connection (.wire (.transfer content offset count) next)
        (.sent ((content.drop offset).take n)) (next (.ok n))
  | fileEnded {content : Bytes} {offset count : Nat}
      {next : WireAnswer → Connection Call Answer} :
      Answered connection (.wire (.transfer content offset count) next) .fileEnded (next (.ok 0))
  | sendAgain {content : Bytes} {offset count : Nat}
      {next : WireAnswer → Connection Call Answer} {fault : IoFault} (passing : Passing fault) :
      Answered connection (.wire (.transfer content offset count) next) .other
        (next (.error fault))
  | sendFailed {content : Bytes} {offset count : Nat}
      {next : WireAnswer → Connection Call Answer} {fault : IoFault} (final : ¬ Passing fault) :
      Answered connection (.wire (.transfer content offset count) next) (.broke .answer)
        (next (.error fault))
  | corked {on : Bool} {next : Connection Call Answer} :
      Answered connection (.cork on next) .other next
  | nodelay {next : Connection Call Answer} : Answered connection (.nodelay next) .other next
  | told {notice : Notice} {next : Connection Call Answer} :
      Answered connection (.tell notice next) .other next
  | dated {next : Bytes → Connection Call Answer} (date : Bytes) :
      Answered connection (.date next) (.dated date) (next date)
  | called {next : Except IoFault TaskId → Connection Call Answer} {request : Request}
      (phase : connection.phase = .spawning request) (id : TaskId) :
      Answered connection (.spawn next) (.called request) (next (.ok id))
  | unstarted {next : Except IoFault TaskId → Connection Call Answer} {request : Request}
      (phase : connection.phase = .spawning request) (fault : IoFault) :
      Answered connection (.spawn next) (.unstarted request) (next (.error fault))
  | switched {id : TaskId} {task after : Task Emit Call Answer} {resume : Resume}
      {next : Step Emit → Task Emit Call Answer → Connection Call Answer} {σ : Type}
      {host : Host Call Answer σ} {before later : σ} {step : Step Emit}
      (ran : task.switch host resume before = (step, after, later)) :
      Answered connection (.switch id task resume next) (.switched step) (next step after)
  | waited {id : TaskId} {wait : Wait} {next : WaitOutcome → Connection Call Answer}
      (outcome : WaitOutcome) :
      Answered connection (.wait id wait next) (.waited outcome) (next outcome)

/-- One step of a connection: it asks, and is answered. -/
def Moves (service : Service Call Answer) (peer : Peer) (connection : Connection Call Answer)
    (deed : Deed) (after : Connection Call Answer) : Prop :=
  Answered connection (connection.next service peer) deed after

/-- What may happen from the opening of a connection on. -/
inductive Run (service : Service Call Answer) (peer : Peer) :
    List Deed → Connection Call Answer → Prop where
  | opened : Run service peer [] opened
  | step {deeds : List Deed} {connection after : Connection Call Answer} {deed : Deed}
      (before : Run service peer deeds connection)
      (moved : connection.Moves service peer deed after) :
      Run service peer (deeds ++ [deed]) after

end Connection

/-! ## Draining and sending, turn by turn -/

namespace Connection

variable {service : Service Call Answer} {peer : Peer} {connection after : Connection Call Answer}
  {deed : Deed}

/-- What a turn at an outbox can come to: some octets went out, or none, and the rest is
still to go; or the socket failed for good. -/
theorem moves_writing {flush : Flush} {purpose : Purpose Call Answer}
    (phase : connection.phase = .writing flush purpose)
    (moved : connection.Moves service peer deed after) :
    (∃ (later : Flush) (octets : Bytes),
        (deed = .wrote purpose.share octets ∧ octets ≠ [] ∨ deed = .other ∧ octets = []) ∧
        octets ++ later.outbox.pending.flatten = flush.outbox.pending.flatten ∧
        later.outbox.sent = flush.outbox.sent + octets.length ∧
        after = if later.isDone then
            connection.afterWriting service later.outbox.sent purpose none
          else connection.goto (.writing later purpose)) ∨
      ∃ fault, deed = .broke purpose.share ∧
        after = connection.afterWriting service flush.outbox.sent purpose (some fault) := by
  have share : connection.share = purpose.share := by simp only [Connection.share, phase]
  have asks : connection.next service peer =
      .wire flush.ask (connection.afterTurn service flush purpose) := by
    simp only [next, phase]
  rw [Moves, asks] at moved
  -- a blocked outbox waits for the socket; only an open one is offered to it
  cases blocked : flush.blocked with
  | true =>
      rw [Flush.ask, if_pos blocked] at moved
      cases moved with
      | writable n =>
          refine .inl ⟨{ flush with blocked := false }, [], .inr ⟨rfl, rfl⟩, rfl, rfl, ?_⟩
          simp only [afterTurn, Flush.take, blocked, if_true]
      | notWritable fault =>
          refine .inr ⟨fault, by rw [share], ?_⟩
          simp only [afterTurn, Flush.take, blocked, if_true]
  | false =>
      rw [Flush.ask, if_neg (by simp [blocked])] at moved
      cases moved with
      | @wrote _ _ n some_octets offered =>
          obtain ⟨whole, count⟩ := Outbox.advance_taken offered
          have size : (flush.outbox.slices.flatten.take n).length = n := by
            rw [List.length_take]
            omega
          refine .inl ⟨{ flush with outbox := flush.outbox.advance n }, _,
            .inl ⟨by rw [share], ?_⟩, whole, by rw [size]; exact count, ?_⟩
          · intro nothing
            rw [nothing, List.length_nil] at size
            omega
          · obtain ⟨m, rfl⟩ : ∃ m, n = m + 1 := ⟨n - 1, by omega⟩
            simp only [afterTurn, Flush.take, blocked, Bool.false_eq_true, if_false]
      | tookNothing =>
          refine .inr ⟨.writeZero, by rw [share], ?_⟩
          simp only [afterTurn, Flush.take, blocked, Bool.false_eq_true, if_false]
      | @writeAgain _ _ fault passing =>
          -- neither fault is final: one blocks the outbox, the other has the write made again
          by_cases block : fault.isWouldBlock = true
          · refine .inl ⟨{ flush with blocked := true }, [], .inr ⟨rfl, rfl⟩, rfl, rfl, ?_⟩
            simp only [afterTurn, Flush.take, blocked, Bool.false_eq_true, if_false, block, if_true]
          · have interrupted := passing.resolve_left block
            refine .inl ⟨flush, [], .inr ⟨rfl, rfl⟩, rfl, rfl, ?_⟩
            simp only [afterTurn, Flush.take, blocked, Bool.false_eq_true, if_false, block,
              interrupted, if_true]
      | @writeFailed _ _ fault final =>
          rw [Passing, not_or] at final
          refine .inr ⟨fault, by rw [share], ?_⟩
          simp only [afterTurn, Flush.take, blocked, Bool.false_eq_true, if_false, final.1,
            final.2]

/-- What a turn at a file can come to. -/
theorem moves_sendingFile {exchange : Exchange Call Answer} {transfer : Transfer}
    (phase : connection.phase = .sendingFile exchange transfer)
    (moved : connection.Moves service peer deed after) :
    (∃ n, deed = .sent ((transfer.content.drop transfer.offset).take n) ∧ 0 < n ∧
        n ≤ transfer.wanted - transfer.sent ∧
        n ≤ (transfer.content.drop transfer.offset).length ∧
        after =
          let further := { transfer with
            offset := transfer.offset + n, sent := transfer.sent + n }
          if further.isDone then connection.afterFile exchange further.sent
          else connection.goto (.sendingFile exchange further)) ∨
      (deed = .fileEnded ∧ after = connection.afterFile exchange transfer.sent) ∨
      (∃ blocked, deed = .other ∧
        after = if transfer.isDone then connection.afterFile exchange transfer.sent
          else connection.goto (.sendingFile exchange { transfer with blocked := blocked })) ∨
      (deed = .broke .answer ∧ after = connection.breakOff exchange) := by
  have share : connection.share = .answer := by simp only [Connection.share, phase]
  have asks : connection.next service peer =
      .wire transfer.ask (connection.afterFileTurn exchange transfer) := by
    simp only [next, phase]
  rw [Moves, asks] at moved
  cases blocked : transfer.blocked with
  | true =>
      rw [Transfer.ask, if_pos blocked] at moved
      cases moved with
      | writable n =>
          refine .inr (.inr (.inl ⟨false, rfl, ?_⟩))
          simp only [afterFileTurn, Transfer.take, blocked, if_true, Transfer.isDone]
          rfl
      | notWritable fault =>
          refine .inr (.inr (.inr ⟨by rw [share], ?_⟩))
          simp only [afterFileTurn, Transfer.take, blocked, if_true]
  | false =>
      rw [Transfer.ask, if_neg (by simp [blocked])] at moved
      cases moved with
      | @sent _ _ _ _ n some_octets asked present =>
          refine .inl ⟨n, rfl, some_octets, by omega, present, ?_⟩
          obtain ⟨m, rfl⟩ : ∃ m, n = m + 1 := ⟨n - 1, by omega⟩
          simp only [afterFileTurn, Transfer.take, blocked, Bool.false_eq_true, if_false]
      | fileEnded =>
          refine .inr (.inl ⟨rfl, ?_⟩)
          simp only [afterFileTurn, Transfer.take, blocked, Bool.false_eq_true, if_false,
            Transfer.isDone, Bool.or_true, if_true]
      | @sendAgain _ _ _ _ fault passing =>
          by_cases block : fault.isWouldBlock = true
          · refine .inr (.inr (.inl ⟨true, rfl, ?_⟩))
            simp only [afterFileTurn, Transfer.take, blocked, Bool.false_eq_true, if_false, block,
              if_true, Transfer.isDone]
            rfl
          · have interrupted := passing.resolve_left block
            refine .inr (.inr (.inl ⟨false, rfl, ?_⟩))
            simp only [afterFileTurn, Transfer.take, blocked, Bool.false_eq_true, if_false, block,
              interrupted, if_true, Transfer.isDone]
            rw [← blocked]
      | @sendFailed _ _ _ _ fault final =>
          rw [Passing, not_or] at final
          refine .inr (.inr (.inr ⟨rfl, ?_⟩))
          simp only [afterFileTurn, Transfer.take, blocked, Bool.false_eq_true, if_false, final.1,
            final.2]

/-! ## What a step comes to, phase by phase -/

theorem moves_receiving {idle : Bool} (phase : connection.phase = .receiving idle)
    (moved : connection.Moves service peer deed after) :
    ∃ received, deed = .heard received ∧
      after = connection.afterReceive service idle received := by
  simp only [Moves, next, phase] at moved
  cases moved with
  | heard received => exact ⟨received, rfl, rfl⟩

theorem moves_tellingReadFault {fault : IoFault} {idle : Bool}
    (phase : connection.phase = .tellingReadFault fault idle)
    (moved : connection.Moves service peer deed after) :
    deed = .other ∧ after = if idle then connection.leave
      else (connection.closeReading .internalServerError).look service := by
  simp only [Moves, next, phase] at moved
  cases moved with
  | told => exact ⟨rfl, rfl⟩

theorem moves_spawning {request : Request} (phase : connection.phase = .spawning request)
    (moved : connection.Moves service peer deed after) :
    (deed = .called request ∧ ∃ id, after = connection.startTask service
        ⟨peer, service.serverName, service.serverPort⟩ request id) ∨
      deed = .unstarted request ∧ ∃ fault,
        after = connection.goto (.tellingUnstarted (Facts.ofRequest request) fault) := by
  simp only [Moves, next, phase] at moved
  cases moved with
  | @called _ other same id =>
      rw [phase] at same
      cases same
      exact .inl ⟨rfl, id, rfl⟩
  | @unstarted _ other same fault =>
      rw [phase] at same
      cases same
      exact .inr ⟨rfl, fault, rfl⟩

theorem moves_tellingUnstarted {facts : Facts} {fault : IoFault}
    (phase : connection.phase = .tellingUnstarted facts fault)
    (moved : connection.Moves service peer deed after) :
    deed = .other ∧
      after = connection.writePage service .internalServerError (some facts) := by
  simp only [Moves, next, phase] at moved
  cases moved with
  | told => exact ⟨rfl, rfl⟩

theorem moves_switching {exchange : Exchange Call Answer} {resume : Resume}
    (phase : connection.phase = .switching exchange resume)
    (moved : connection.Moves service peer deed after) :
    ∃ (σ : Type) (host : Host Call Answer σ) (before later : σ) (step : Step Emit)
      (task : Task Emit Call Answer),
      exchange.task.switch host resume before = (step, task, later) ∧ deed = .switched step ∧
        after = connection.afterSwitch service exchange step task := by
  simp only [Moves, next, phase] at moved
  cases moved with
  | switched ran => exact ⟨_, _, _, _, _, _, ran, rfl, rfl⟩

theorem moves_waiting {exchange : Exchange Call Answer} {wait : Wait}
    (phase : connection.phase = .waiting exchange wait)
    (moved : connection.Moves service peer deed after) :
    ∃ outcome, deed = .waited outcome ∧ after = connection.afterWait exchange outcome := by
  simp only [Moves, next, phase] at moved
  cases moved with
  | waited outcome => exact ⟨outcome, rfl, rfl⟩

theorem moves_corking {exchange : Exchange Call Answer} {emit : Emit}
    (phase : connection.phase = .corking exchange emit)
    (moved : connection.Moves service peer deed after) :
    deed = .other ∧ after = connection.goto (.dating exchange emit) := by
  simp only [Moves, next, phase] at moved
  cases moved with
  | corked => exact ⟨rfl, rfl⟩

theorem moves_dating {exchange : Exchange Call Answer} {emit : Emit}
    (phase : connection.phase = .dating exchange emit)
    (moved : connection.Moves service peer deed after) :
    ∃ date, deed = .dated date ∧ after = connection.writeHead service exchange emit date := by
  simp only [Moves, next, phase] at moved
  cases moved with
  | dated date => exact ⟨date, rfl, rfl⟩

theorem moves_uncorking {exchange : Exchange Call Answer}
    (phase : connection.phase = .uncorking exchange)
    (moved : connection.Moves service peer deed after) :
    deed = .other ∧ after = if service.accessLog then
        { connection with served := connection.served + 1 }.goto (.tellingAccess exchange)
      else { connection with served := connection.served + 1 }.afterAnswer service exchange := by
  simp only [Moves, next, phase] at moved
  cases moved with
  | corked => exact ⟨rfl, rfl⟩

theorem moves_tellingAccess {exchange : Exchange Call Answer}
    (phase : connection.phase = .tellingAccess exchange)
    (moved : connection.Moves service peer deed after) :
    deed = .other ∧ after = connection.afterAnswer service exchange := by
  simp only [Moves, next, phase] at moved
  cases moved with
  | told => exact ⟨rfl, rfl⟩

theorem moves_tellingFailure {exchange : Exchange Call Answer} {error : AppError}
    (phase : connection.phase = .tellingFailure exchange error)
    (moved : connection.Moves service peer deed after) :
    deed = .other ∧ after = connection.afterFailure service exchange := by
  simp only [Moves, next, phase] at moved
  cases moved with
  | told => exact ⟨rfl, rfl⟩

/-- Only an interim answer is written as one. -/
theorem moves_wroteInterim {octets : Bytes}
    (moved : connection.Moves service peer (.wrote .interim octets) after) :
    (∃ flush, connection.phase = .writing flush .interimWhileReading) ∨
      ∃ flush request, connection.phase = .writing flush (.interimBefore request) := by
  have interim : connection.share = .interim := by
    rw [Moves] at moved
    generalize connection.next service peer = asks at moved
    generalize told : Deed.wrote .interim octets = deed at moved
    cases moved with
    | wrote some_octets offered =>
        injection told with share
        exact share.symm
    | _ => cases told
  rw [Connection.share] at interim
  split at interim
  · rename_i flush purpose phase
    cases purpose with
    | interimWhileReading => exact .inl ⟨flush, phase⟩
    | interimBefore request => exact .inr ⟨flush, request, phase⟩
    | errorPage status facts => cases facts <;> cases interim
    | _ => cases interim
  · cases interim

/-- The application is called only for the request that was taken up. -/
theorem moves_called {request : Request}
    (moved : connection.Moves service peer (.called request) after) :
    connection.phase = .spawning request := by
  rw [Moves] at moved
  generalize connection.next service peer = asks at moved
  generalize told : Deed.called request = deed at moved
  cases moved with
  | called phase id =>
      cases told
      exact phase
  | _ => cases told

/-! ## What a run comes from -/

namespace Run

variable {deeds first rest : List Deed}

/-- The last deed of a run is a step. -/
theorem concat_inv (run : Run service peer (deeds ++ [deed]) after) :
    ∃ connection, Run service peer deeds connection ∧ connection.Moves service peer deed after := by
  generalize told : deeds ++ [deed] = whole at run
  cases run with
  | opened => simp at told
  | step before moved =>
      obtain ⟨rfl, same⟩ := List.append_inj' told rfl
      cases same
      exact ⟨_, before, moved⟩

/-- Every front of a run is a run. -/
theorem front (run : Run service peer (first ++ rest) connection) :
    ∃ here, Run service peer first here := by
  induction rest using List.reverseRecOn generalizing connection with
  | nil => exact ⟨connection, by simpa using run⟩
  | append_singleton earlier deed ih =>
      rw [← List.append_assoc] at run
      obtain ⟨here, before, -⟩ := run.concat_inv
      exact ih before

/-- Every deed of a run is a step of a connection. -/
theorem step_inv (run : Run service peer (first ++ deed :: rest) after) :
    ∃ connection next, Run service peer first connection ∧
      connection.Moves service peer deed next := by
  rw [← List.singleton_append, ← List.append_assoc] at run
  obtain ⟨next, front⟩ := run.front
  obtain ⟨connection, earlier, moved⟩ := front.concat_inv
  exact ⟨connection, next, earlier, moved⟩

end Run

end Connection

end EmbeddedHttp
