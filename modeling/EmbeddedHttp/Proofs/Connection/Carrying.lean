/-
# EmbeddedHttp.Proofs.Connection.Carrying -- an answer is carried out as it was handed over

Along the course of an answer the account of its deeds owes what the task handed over
(`Phase.Carries`), whatever the task does and however the socket behaves.  Every step
inside the answer keeps it; so along the whole course what went out is the front of one
response, or of the page in place of it (`Connection.Course.tallies`).
-/
import EmbeddedHttp.Proofs.Connection.Owing

namespace EmbeddedHttp

set_option autoImplicit false

open Deed (handed)

theorem Deed.handed_quiet (deeds : List Deed) (deed : Deed) (quiet : handed [deed] = []) :
    handed (deeds ++ [deed]) = handed deeds := by
  rw [handed_append, quiet, List.append_nil]

theorem Deed.handed_turn (deeds : List Deed) {deed : Deed} {share : Share} {octets : Bytes}
    (turn : deed = .wrote share octets ∧ octets ≠ [] ∨ deed = .other ∧ octets = []) :
    handed (deeds ++ [deed]) = handed deeds := by
  rcases turn with ⟨rfl, -⟩ | ⟨rfl, -⟩ <;> exact handed_quiet deeds _ rfl

/-- Behind a piece that comes in order, the flow is that of the progress. -/
theorem Owes.flow {serverName : String} {request : Request} {account : Account} {rest : Nat}
    {emits : List Emit} (owes : Owes serverName request account rest emits) {data : Bytes}
    (inOrder : Stage.of (emits ++ [.chunk data]) = some .pieces) (outbox : Outbox) :
    (account.progress.pushBody outbox data).2.2 =
      (account.progress.pushBody outbox data).2.1.flow := by
  cases owes with
  | nothing due framing count => cases inOrder
  | pieces owes => exact Progress.pushBody_flow owes.framed outbox data
  | file owes => cases inOrder
  | astray astray =>
      rw [Stage.of_append, astray] at inOrder
      cases inOrder

variable {Call : Type} {Answer : Call → Type} {service : Service Call Answer} {peer : Peer}
  {connection after : Connection Call Answer} {request : Request} {account : Account}
  {deeds : List Deed} {deed : Deed} {exchange : Exchange Call Answer}

/-- The page in place of an answer is due. -/
def Account.OwesPage (account : Account) (serverName : String) : Prop :=
  account.due = Status.internalServerError.errorPage serverName

/-- What an account owes in each phase of an answer.  A head that waits for its date is not
owed yet; of a file some is still to be sent; and once the task is over the exchange knows
of every write that failed. -/
def Phase.Carries (serverName : String) (request : Request) (account : Account)
    (deeds : List Deed) : Phase Call Answer → Prop
  | .switching exchange resume =>
      Owes serverName request account 0 (handed deeds) ∧ account.ending = .running ∧
        (Stage.of (handed deeds) = some .pieces → account.broken = false →
          (∀ outcome, deeds.getLast? ≠ some (.waited outcome)) →
          resume = Connection.reply exchange.progress.flow)
  | .waiting _ _ => Owes serverName request account 0 (handed deeds)
  | .corking _ emit | .dating _ emit =>
      ∃ before, handed deeds = before ++ [emit] ∧ Owes serverName request account 0 before
  | .writing _ (.piece exchange flow) =>
      Owes serverName request account 0 (handed deeds) ∧
        (Stage.of (handed deeds) = some .pieces → flow = exchange.progress.flow)
  | .writing _ (.fileHead exchange body) =>
      Owes serverName request account
          ((body.content.drop body.position).take (exchange.progress.fileRoom body)).length
          (handed deeds) ∧ Owes.IsFile (handed deeds)
  | .sendingFile _ transfer =>
      Owes serverName request account ((transfer.content.drop transfer.offset).take
          (transfer.wanted - transfer.sent)).length (handed deeds) ∧ Owes.IsFile (handed deeds)
  | .writing _ (.lastChunk _) => Owes serverName request account 0 (handed deeds)
  | .uncorking exchange | .tellingAccess exchange =>
      Owes serverName request account 0 (handed deeds) ∧ account.ending = .completed ∧
        exchange.broken = account.broken ∧
        (account.broken = false → exchange.progress = account.progress)
  | .tellingFailure exchange error =>
      (Owes serverName request account 0 (handed deeds) ∨ account.OwesPage serverName) ∧
        exchange.broken = account.broken ∧
        (account.broken = false → exchange.progress.flushed = !account.octets.isEmpty) ∧
        deeds.getLast? = some (.switched (.failed error))
  | .writing _ (.errorPage _ (some _)) => account.OwesPage serverName
  | phase => phase.isLast = true ∧
      (Owes serverName request account 0 (handed deeds) ∨ account.OwesPage serverName)

theorem Phase.Carries.isOfTask {serverName : String} {phase : Phase Call Answer}
    (carries : phase.Carries serverName request account deeds) :
    phase.isOfTask = true ∨ phase.isLast = true := by
  cases phase with
  | writing flush purpose =>
      cases purpose with
      | interimWhileReading | interimBefore _ => cases carries.1
      | errorPage status facts =>
          cases facts with
          | none => cases carries.1
          | some facts => exact .inl rfl
      | _ => exact .inl rfl
  | switching _ _ | waiting _ _ | corking _ _ | dating _ _ | sendingFile _ _ | uncorking _
  | tellingAccess _ | tellingFailure _ _ => exact .inl rfl
  | _ => exact .inr carries.1

namespace Connection

/-! ## Turns at an outbox -/

theorem carries_piece {flush : Flush} {flow : Flow}
    (phase : connection.phase = .writing flush (.piece exchange flow))
    (carries : Phase.Carries service.serverName request account deeds
      (.writing flush (.piece exchange flow)))
    (running : account.ending = .running) (moved : connection.Moves service peer deed after) :
    after.phase.Carries service.serverName request (account.enter service.serverName deed)
      (deeds ++ [deed]) := by
  obtain ⟨owes, told⟩ := carries
  rcases moves_writing phase moved with
    ⟨later, octets, turn, -, -, rfl⟩ | ⟨fault, rfl, rfl⟩
  · rw [enter_turn account service.serverName turn]
    have same := Deed.handed_turn deeds turn
    split
    · refine ⟨by rw [same]; exact owes.pay octets, running, fun inOrder _ _ => ?_⟩
      rw [same] at inOrder
      rw [told inOrder]
      rfl
    · exact ⟨by rw [same]; exact owes.pay octets, by rw [same]; exact told⟩
  · refine ⟨?_, running, fun _ unbroken => by cases unbroken⟩
    rw [Deed.handed_quiet deeds _ rfl]
    exact owes.broke 0

/-- The head of a file is out. -/
theorem carries_sendFile {body : FileBody} (running : account.ending = .running)
    (owes : Owes service.serverName request account
      ((body.content.drop body.position).take (exchange.progress.fileRoom body)).length
      (handed deeds)) (isFile : Owes.IsFile (handed deeds)) :
    (connection.sendFile service exchange body).phase.Carries service.serverName request account
      deeds := by
  simp only [sendFile]
  split
  · rename_i nothing
    rw [nothing, List.take_zero, List.length_nil] at owes
    exact ⟨owes, running, fun inOrder => by cases isFile _ inOrder⟩
  · exact ⟨owes, isFile⟩

theorem carries_fileHead {flush : Flush} {body : FileBody}
    (phase : connection.phase = .writing flush (.fileHead exchange body))
    (carries : Phase.Carries service.serverName request account deeds
      (.writing flush (.fileHead exchange body)))
    (running : account.ending = .running) (moved : connection.Moves service peer deed after) :
    after.phase.Carries service.serverName request (account.enter service.serverName deed)
      (deeds ++ [deed]) := by
  obtain ⟨owes, isFile⟩ := carries
  rcases moves_writing phase moved with
    ⟨later, octets, turn, -, -, rfl⟩ | ⟨fault, rfl, rfl⟩
  · rw [enter_turn account service.serverName turn]
    have same := Deed.handed_turn deeds turn
    rw [← same] at owes isFile
    split
    · exact carries_sendFile running (owes.pay octets) isFile
    · exact ⟨owes.pay octets, isFile⟩
  · refine ⟨?_, running, fun _ unbroken => by cases unbroken⟩
    rw [Deed.handed_quiet deeds _ rfl]
    exact owes.broke 0

theorem carries_lastChunk {flush : Flush}
    (phase : connection.phase = .writing flush (.lastChunk exchange))
    (owes : Owes service.serverName request account 0 (handed deeds))
    (agrees : Agrees account exchange flush.outbox.sent flush.outbox.pending.flatten)
    (completed : account.ending = .completed)
    (moved : connection.Moves service peer deed after) :
    after.phase.Carries service.serverName request (account.enter service.serverName deed)
      (deeds ++ [deed]) := by
  rcases moves_writing phase moved with
    ⟨later, octets, turn, whole, count, rfl⟩ | ⟨fault, rfl, rfl⟩
  · rw [enter_turn account service.serverName turn]
    have same := Deed.handed_turn deeds turn
    rw [← same] at owes
    split
    · rw [← List.append_nil flush.outbox.pending.flatten] at agrees
      have paid := agrees.turn whole count
      exact ⟨owes.pay octets, completed, paid.unbroken.trans paid.whole.symm,
        fun _ => paid.progress.symm⟩
    · exact owes.pay octets
  · refine ⟨?_, completed, rfl, fun unbroken => by cases unbroken⟩
    rw [Deed.handed_quiet deeds _ rfl]
    exact owes.broke 0

/-- The page in place of an answer is all that goes out. -/
theorem carries_page {flush : Flush} {status : Status} {facts : Facts}
    (phase : connection.phase = .writing flush (.errorPage status (some facts)))
    (page : account.OwesPage service.serverName)
    (moved : connection.Moves service peer deed after) :
    after.phase.Carries service.serverName request (account.enter service.serverName deed)
      (deeds ++ [deed]) := by
  rcases moves_writing phase moved with
    ⟨later, octets, turn, -, -, rfl⟩ | ⟨fault, rfl, rfl⟩
  · rw [enter_turn account service.serverName turn]
    split
    · exact ⟨rfl, .inr page⟩
    · exact page
  · exact ⟨rfl, .inr page⟩

/-! ## Files -/

theorem carries_sendingFile {transfer : Transfer}
    (phase : connection.phase = .sendingFile exchange transfer)
    (carries : Phase.Carries service.serverName request account deeds
      (.sendingFile exchange transfer))
    (answers : Phase.Answers service account (.sendingFile exchange transfer))
    (moved : connection.Moves service peer deed after) :
    after.phase.Carries service.serverName request (account.enter service.serverName deed)
      (deeds ++ [deed]) := by
  obtain ⟨owes, isFile⟩ := carries
  obtain ⟨agrees, running, goesOn⟩ := answers
  -- a file that is done, by its count or by its end, is followed by the task
  have done : ∀ {account : Account} {deeds : List Deed} (sent : Nat),
      account.ending = .running → Owes.IsFile (handed deeds) →
      Owes service.serverName request account 0 (handed deeds) →
      (connection.afterFile exchange sent).phase.Carries service.serverName request account
        deeds :=
    fun sent running isFile owes => ⟨owes, running, fun inOrder => by cases isFile _ inOrder⟩
  have nothingLeft : ∀ other : Transfer, other.ended = false → other.isDone = true →
      ((other.content.drop other.offset).take (other.wanted - other.sent)).length = 0 := by
    intro other more enough
    simp only [Transfer.isDone, more, Bool.or_false, decide_eq_true_eq] at enough
    rw [Nat.sub_eq_zero_of_le enough, List.take_zero, List.length_nil]
  rcases moves_sendingFile phase moved with
    ⟨n, rfl, -, wanted, present, rfl⟩ | ⟨rfl, rfl⟩ | ⟨blocked, rfl, rfl⟩ | ⟨rfl, rfl⟩
  · rw [← Deed.handed_quiet deeds (.sent ((transfer.content.drop transfer.offset).take n))
      rfl] at owes isFile
    have parts : ((transfer.content.drop transfer.offset).take
          (transfer.wanted - transfer.sent)).length =
        ((transfer.content.drop transfer.offset).take n).length +
          ((transfer.content.drop (transfer.offset + n)).take
            (transfer.wanted - (transfer.sent + n))).length := by
      simp only [List.length_take, List.length_drop] at present ⊢
      omega
    rw [parts] at owes
    have further := owes.sent isFile
    dsimp only
    split
    · rename_i enough
      rw [nothingLeft { transfer with
        offset := transfer.offset + n, sent := transfer.sent + n } goesOn enough] at further
      exact done _ running isFile further
    · exact ⟨further, isFile⟩
  · rw [← Deed.handed_quiet deeds .fileEnded rfl] at owes isFile
    exact done _ running isFile (owes.fileEnded isFile agrees.due agrees.whole)
  · rw [← Deed.handed_quiet deeds .other rfl] at owes isFile
    split
    · rename_i enough
      rw [nothingLeft transfer goesOn enough] at owes
      exact done _ running isFile owes
    · exact ⟨owes, isFile⟩
  · refine ⟨?_, running, fun _ unbroken => by cases unbroken⟩
    rw [Deed.handed_quiet deeds _ rfl]
    exact owes.broke 0

/-! ## Turns at a task -/

/-- Something that the task handed over. -/
theorem carries_emit {emit : Emit} (running : account.ending = .running)
    (progress : account.progress = exchange.progress)
    (owes : Owes service.serverName request account 0 (handed deeds)) :
    (connection.takeEmit service exchange emit).phase.Carries service.serverName request
      (account.enter service.serverName (.switched (.yielded emit)))
      (deeds ++ [.switched (.yielded emit)]) := by
  have told : handed (deeds ++ [.switched (.yielded emit)]) = handed deeds ++ [emit] := by
    rw [Deed.handed_append]
    rfl
  cases emit with
  | head head first length => exact ⟨_, told, owes.congr rfl rfl rfl rfl id⟩
  | file head body => exact ⟨_, told, owes.congr rfl rfl rfl rfl id⟩
  | chunk data =>
      have further := owes.chunk running data
      rw [← told] at further
      have flow : Stage.of (handed (deeds ++ [.switched (.yielded (.chunk data))])) =
            some .pieces →
          (exchange.progress.pushBody Outbox.empty data).2.2 =
            (exchange.progress.pushBody Outbox.empty data).2.1.flow := by
        intro inOrder
        rw [told] at inOrder
        rw [← progress]
        exact owes.flow inOrder Outbox.empty
      simp only [takeEmit, drain]
      split
      · refine ⟨further, running, fun inOrder _ _ => ?_⟩
        rw [flow inOrder]
      · exact ⟨further, flow⟩

/-- The task completed: what ends the body is due, and the exchange knows of every write
that failed. -/
theorem carries_completed (running : account.ending = .running)
    (owes : Owes service.serverName request account 0 (handed deeds))
    (broken : exchange.broken = account.broken)
    (progress : account.broken = false → exchange.progress = account.progress) :
    (connection.finishBody service exchange).phase.Carries service.serverName request
      account.complete (deeds ++ [.switched .completed]) := by
  obtain ⟨completed, sameProgress, -, sameBroken⟩ := account.complete_notes
  have due := owes.complete running
  rw [← Deed.handed_quiet deeds (.switched .completed) rfl] at due
  have whole : ∀ other : Exchange Call Answer, other.broken = exchange.broken →
      other.progress = exchange.progress →
      Phase.Carries service.serverName request account.complete
        (deeds ++ [.switched .completed]) (.uncorking other) := by
    intro other brokenToo progressToo
    refine ⟨due, completed, ?_, fun unbroken => ?_⟩
    · rw [brokenToo, broken, sameBroken]
    · rw [sameBroken] at unbroken
      rw [progressToo, progress unbroken, sameProgress]
  simp only [finishBody]
  split
  · exact whole _ rfl rfl
  · split
    · exact due
    · exact whole _ rfl rfl

/-- The task failed. -/
theorem carries_failed {error : AppError} (running : account.ending = .running)
    (owes : Owes service.serverName request account 0 (handed deeds))
    (broken : exchange.broken = account.broken)
    (flushed : account.broken = false →
      exchange.progress.flushed = !account.octets.isEmpty) :
    Phase.Carries service.serverName request (account.fail service.serverName)
      (deeds ++ [.switched (.failed error)]) (.tellingFailure exchange error) := by
  obtain ⟨-, octets, -, sameBroken⟩ := account.fail_notes service.serverName
  refine ⟨?_, broken.trans sameBroken.symm, fun unbroken => ?_, List.getLast?_concat⟩
  · rw [Deed.handed_quiet deeds _ rfl]
    exact owes.fail running
  · rw [sameBroken] at unbroken
    rw [octets]
    exact flushed unbroken

theorem carries_switching {resume : Resume}
    (phase : connection.phase = .switching exchange resume)
    (carries : Phase.Carries service.serverName request account deeds (.switching exchange resume))
    (answers : Phase.Answers service account (.switching exchange resume))
    (moved : connection.Moves service peer deed after) :
    after.phase.Carries service.serverName request (account.enter service.serverName deed)
      (deeds ++ [deed]) := by
  obtain ⟨owes, running, -⟩ := carries
  obtain ⟨σ, host, before, later, step, task, ran, rfl, rfl⟩ := moves_switching phase moved
  rcases answers with ⟨agrees, -⟩ | ⟨rfl, givenUp⟩
  · have progress : account.progress = exchange.progress := by
      rw [agrees.progress, Progress.noteFlushed_zero]
    have broken := agrees.unbroken.trans agrees.whole.symm
    cases step with
    | suspended wait =>
        have same := Deed.handed_quiet deeds (.switched (.suspended wait)) rfl
        rw [← same] at owes
        exact owes
    | yielded emit => exact carries_emit running progress owes
    | completed => exact carries_completed running owes broken fun _ => progress.symm
    | failed error => exact carries_failed running owes broken fun _ => progress ▸ agrees.flushed
  · -- behind a write that failed the account asks nothing of the progress
    have known := givenUp.known.trans givenUp.entered.symm
    have never : ∀ {P : Prop}, account.broken = false → P := by
      intro P unbroken
      rw [givenUp.entered] at unbroken
      cases unbroken
    rcases Task.switch_cancel ran with rfl | ⟨error, rfl⟩
    · exact carries_completed running owes known never
    · exact carries_failed running owes known never

theorem carries_waiting {wait : Wait} (phase : connection.phase = .waiting exchange wait)
    (owes : Owes service.serverName request account 0 (handed deeds))
    (running : account.ending = .running) (moved : connection.Moves service peer deed after) :
    after.phase.Carries service.serverName request (account.enter service.serverName deed)
      (deeds ++ [deed]) := by
  obtain ⟨outcome, rfl, rfl⟩ := moves_waiting phase moved
  refine ⟨?_, running, fun _ _ noWait => absurd List.getLast?_concat (noWait outcome)⟩
  rw [Deed.handed_quiet deeds _ rfl]
  exact owes.waited outcome

/-! ## Heads -/

theorem carries_dating {emit : Emit} (phase : connection.phase = .dating exchange emit)
    (carries : Phase.Carries service.serverName request account deeds (.dating exchange emit))
    (start : account.start = .called request)
    (answers : Phase.Answers service account (.dating exchange emit))
    (moved : connection.Moves service peer deed after) :
    after.phase.Carries service.serverName request (account.enter service.serverName deed)
      (deeds ++ [deed]) := by
  obtain ⟨before, told, owes⟩ := carries
  obtain ⟨agrees, running, waits, hasHead⟩ := answers
  obtain ⟨date, rfl, rfl⟩ := moves_dating phase moved
  have same : handed (deeds ++ [.dated date]) = before ++ [emit] := by
    rw [Deed.handed_quiet deeds _ rfl, told]
  have entered : account.enter service.serverName (.dated date) =
      account.oweHead service.serverName request emit date := by
    simp only [Account.enter, start, waits]
  rw [entered]
  cases emit with
  | chunk data => cases hasHead
  | head head first length =>
      have further := owes.head running head first length date
      rw [← same] at further
      cases first with
      | none => exact ⟨further, fun _ => rfl⟩
      | some data => exact ⟨further, fun _ => Progress.pushBody_flow rfl _ data⟩
  | file head body =>
      have further := owes.fileHead head body date
      rw [← same] at further
      refine ⟨?_, ?_⟩
      · -- the exchange frames the head as its account does
        obtain ⟨other, called, facts⟩ := agrees.called
        have is : other = request := Start.called.inj (called.symm.trans start)
        have keepAlive : exchange.keepAlive = (request.keepAlive && !account.timedOut) := by
          rw [agrees.keepAlive]
          simp [Account.hopes, start, running]
        simp only [facts, is, keepAlive]
        exact further
      · intro stage inOrder
        rw [same, Stage.of_append] at inOrder
        cases begun : Stage.of before with
        | none =>
            rw [begun] at inOrder
            cases inOrder
        | some early =>
            rw [begun] at inOrder
            cases early with
            | start => exact (Option.some.inj inOrder).symm
            | _ => cases inOrder

/-! ## Steps and courses -/

/-- The task failed: the page is due if nothing of the answer went out and no write failed. -/
theorem carries_tellingFailure {error : AppError}
    (phase : connection.phase = .tellingFailure exchange error)
    (carries : Phase.Carries service.serverName request account deeds
      (.tellingFailure exchange error))
    (failed : Failed service.serverName account exchange)
    (moved : connection.Moves service peer deed after) :
    after.phase.Carries service.serverName request (account.enter service.serverName deed)
      (deeds ++ [deed]) := by
  obtain ⟨due, -, -, -⟩ := carries
  obtain ⟨rfl, rfl⟩ := moves_tellingFailure phase moved
  rw [← Deed.handed_quiet deeds .other rfl] at due
  simp only [afterFailure]
  split
  · rename_i unanswered
    simp only [Bool.and_eq_true, Bool.not_eq_true'] at unanswered
    exact (failed.page unanswered.1 unanswered.2).2
  · exact ⟨rfl, due⟩

/-- **Every step inside an answer keeps the account owing what the task handed over.** -/
theorem carries (start : account.start = .called request)
    (carries : connection.phase.Carries service.serverName request account deeds)
    (answers : connection.phase.isLast = false → connection.phase.Answers service account)
    (inside : connection.endsAnswer service = false)
    (moved : connection.Moves service peer deed after) :
    after.phase.Carries service.serverName request (account.enter service.serverName deed)
      (deeds ++ [deed]) := by
  have onward : ∀ {emits : List Emit}, emits = handed deeds →
      connection.phase.isLast = true →
      Owes service.serverName request account 0 emits ∨ account.OwesPage service.serverName →
      after.phase.Carries service.serverName request (account.enter service.serverName deed)
        (deeds ++ [deed]) := by
    rintro emits rfl isLast due
    obtain ⟨rfl, last⟩ := moves_last isLast moved
    rw [← Deed.handed_quiet deeds .other rfl] at due
    have stays : ∀ phase : Phase Call Answer, phase.isLast = true →
        phase.Carries service.serverName request account (deeds ++ [.other]) := by
      intro phase isLast
      cases phase with
      | uncorkingPage _ _ _ | tellingPage _ | leaving | hurrying | closed | broken _
      | overflowed => exact ⟨rfl, due⟩
      | _ => cases isLast
    exact stays _ last
  cases phase : connection.phase with
  | switching exchange resume =>
      rw [phase] at carries answers
      exact carries_switching phase carries (answers rfl) moved
  | waiting exchange wait =>
      rw [phase] at carries answers
      exact carries_waiting phase carries (answers rfl).2 moved
  | corking exchange emit =>
      rw [phase] at carries
      obtain ⟨rfl, rfl⟩ := moves_corking phase moved
      obtain ⟨before, told, owes⟩ := carries
      exact ⟨before, (Deed.handed_quiet deeds .other rfl).trans told, owes⟩
  | dating exchange emit =>
      rw [phase] at carries answers
      exact carries_dating phase carries start (answers rfl) moved
  | sendingFile exchange transfer =>
      rw [phase] at carries answers
      exact carries_sendingFile phase carries (answers rfl) moved
  | uncorking exchange =>
      rw [phase] at carries
      obtain ⟨rfl, rfl⟩ := moves_uncorking phase moved
      have logged : service.accessLog = true := by simpa [endsAnswer, phase] using inside
      obtain ⟨owes, rest⟩ := carries
      rw [if_pos logged]
      exact ⟨by rw [Deed.handed_quiet deeds .other rfl]; exact owes, rest⟩
  | tellingAccess exchange => simp [endsAnswer, phase] at inside
  | tellingFailure exchange error =>
      rw [phase] at carries answers
      exact carries_tellingFailure phase carries (answers rfl) moved
  | writing flush purpose =>
      rw [phase] at carries answers
      cases purpose with
      | interimWhileReading | interimBefore _ => cases carries.1
      | piece exchange flow => exact carries_piece phase carries (answers rfl).2 moved
      | fileHead exchange body => exact carries_fileHead phase carries (answers rfl).2 moved
      | lastChunk exchange =>
          exact carries_lastChunk phase carries (answers rfl).1 (answers rfl).2 moved
      | errorPage status facts =>
          cases facts with
          | none => cases carries.1
          | some facts => exact carries_page phase carries moved
  | _ =>
      rw [phase] at carries
      exact onward rfl (by rw [phase]; exact carries.1) carries.2

/-- The account of some deeds tallies with the connection: what went out is the front of
what is due, and what is due is what the task handed over. -/
structure Tallies (service : Service Call Answer) (request : Request) (deeds : List Deed)
    (here : Connection Call Answer) : Prop where
  within : (Account.along service.serverName request deeds).octets <+:
    (Account.along service.serverName request deeds).due
  answers : here.phase.isLast = false →
    here.phase.Answers service (Account.along service.serverName request deeds)
  carries : here.phase.Carries service.serverName request
    (Account.along service.serverName request deeds) deeds

/-- A task is about to begin to answer a request. -/
def begin (connection : Connection Call Answer) (request : Request) (id : TaskId)
    (task : Task Emit Call Answer) : Connection Call Answer :=
  connection.goto (.switching
    { facts := Facts.ofRequest request
      id := id
      task := task
      progress := Progress.none
      keepAlive := request.keepAlive
      broken := false } .start)

theorem tallies_begin (service : Service Call Answer) (connection : Connection Call Answer)
    (request : Request) (id : TaskId) (task : Task Emit Call Answer) :
    (connection.begin request id task).Tallies service request [] where
  within := List.prefix_rfl
  answers _ := .inl ⟨⟨⟨request, rfl, rfl⟩, by simp [Account.hopes, Account.along, Account.opened],
    rfl, rfl, rfl, rfl, rfl⟩, rfl⟩
  carries := ⟨.nothing rfl rfl rfl, rfl, fun inOrder => by cases inOrder⟩

theorem Tallies.step {here : Connection Call Answer}
    (tallies : here.Tallies service request deeds) (inside : here.endsAnswer service = false)
    (moved : here.Moves service peer deed after) :
    after.Tallies service request (deeds ++ [deed]) := by
  have start := Account.along_start service.serverName request deeds
  have further := Connection.carries start tallies.carries tallies.answers inside moved
  have entered := Account.along_append service.serverName request deeds deed
  rw [← entered] at further
  have leaving : after.phase.isLast = true → (Account.along service.serverName request
      (deeds ++ [deed])).octets <+: (Account.along service.serverName request
      (deeds ++ [deed])).due → after.Tallies service request (deeds ++ [deed]) := by
    intro last within
    refine ⟨within, fun goesOn => ?_, further⟩
    rw [last] at goesOn
    cases goesOn
  cases isLast : here.phase.isLast with
  | true =>
      obtain ⟨rfl, last⟩ := moves_last isLast moved
      refine leaving last ?_
      rw [entered]
      exact tallies.within
  | false =>
      obtain ⟨-, goesOn⟩ := goes (tallies.answers isLast) moved
      cases goesOn with
      | on intake closed answers =>
          rw [← entered] at answers
          exact ⟨answers.within, fun _ => answers, further⟩
      | leaves last within =>
          rw [← entered] at within
          exact leaving last within
      | next settled silent other intake closed looks =>
          -- the queue is looked at behind an answer only, so here it is on the way out
          rw [looks] at further
          rcases further.isOfTask with ofTask | last
          · rw [look_begins] at ofTask
            cases ofTask
          · rw [← looks] at last
            refine leaving last ?_
            rw [entered, silent]
            exact settled.whole ▸ List.prefix_rfl

/-- **Along the course of an answer, what went out is the front of what is due, and what is
due is what the task handed over.** -/
theorem Course.tallies {id : TaskId} {task : Task Emit Call Answer}
    {here : Connection Call Answer}
    (course : Course service peer (connection.begin request id task) deeds here) :
    here.Tallies service request deeds := by
  induction course with
  | begun => exact tallies_begin service connection request id task
  | step before inside moved ih => exact ih.step inside moved

/-! ## The end of an answer -/

/-- Where a task is given control and no write failed, all that is due is out, and the exchange
counts as its account does. -/
theorem Tallies.resumed {here : Connection Call Answer} {resume : Resume}
    (tallies : here.Tallies service request deeds)
    (phase : here.phase = .switching exchange resume)
    (unbroken : (Account.along service.serverName request deeds).broken = false) :
    exchange.progress = (Account.along service.serverName request deeds).progress ∧
      Deed.written deeds = (Account.along service.serverName request deeds).due := by
  have answers := tallies.answers (by rw [phase]; rfl)
  rw [phase] at answers
  rcases answers with ⟨agrees, -⟩ | ⟨-, givenUp⟩
  · have due := agrees.due
    rw [List.append_nil, Account.along_octets] at due
    exact ⟨by rw [agrees.progress, Progress.noteFlushed_zero], due⟩
  · rw [givenUp.entered] at unbroken
    cases unbroken

/-- Where an answer ends, its exchange knows what its account says. -/
theorem Tallies.ended {here : Connection Call Answer}
    (tallies : here.Tallies service request deeds)
    (phase : here.phase = .uncorking exchange ∨ here.phase = .tellingAccess exchange) :
    Owes service.serverName request (Account.along service.serverName request deeds) 0
        (handed deeds) ∧
      (Account.along service.serverName request deeds).ending = .completed ∧
      exchange.broken = (Account.along service.serverName request deeds).broken ∧
      ((Account.along service.serverName request deeds).broken = false →
        exchange.progress = (Account.along service.serverName request deeds).progress) ∧
      Finished (Account.along service.serverName request deeds) exchange := by
  have carries := tallies.carries
  rcases phase with phase | phase
  · have finished := tallies.answers (by rw [phase]; rfl)
    rw [phase] at carries finished
    obtain ⟨owes, completed, broken, progress⟩ := carries
    exact ⟨owes, completed, broken, progress, finished⟩
  · have finished := tallies.answers (by rw [phase]; rfl)
    rw [phase] at carries finished
    obtain ⟨owes, completed, broken, progress⟩ := carries
    exact ⟨owes, completed, broken, progress, finished⟩

/-- The connection may be kept just if the request, every wait and the head allow it and the
body is not shorter than announced. -/
theorem Tallies.keepAlive {here : Connection Call Answer}
    (tallies : here.Tallies service request deeds)
    (phase : here.phase = .uncorking exchange ∨ here.phase = .tellingAccess exchange)
    (unbroken : (Account.along service.serverName request deeds).broken = false)
    {framing : ResponseFraming}
    (framed : (Account.along service.serverName request deeds).progress.framing =
      some framing) :
    exchange.keepAlive = true ↔ request.keepAlive = true ∧
      (∀ outcome ∈ Deed.outcomes deeds, outcome.timedOut = false) ∧ framing.keepAlive = true ∧
        (Account.along service.serverName request deeds).progress.isShort = false := by
  obtain ⟨-, completed, broken, -, finished⟩ := tallies.ended phase
  have kept := finished.kept
  rw [Account.kept, Account.along_start, broken, unbroken, completed, framed,
    Account.along_timedOut] at kept
  have same : (Ending.completed == Ending.completed) = true := rfl
  simp only [same, Bool.not_false, Bool.and_true, Bool.true_and, Option.all_some] at kept
  rw [← kept]
  simp only [Bool.and_eq_true, Bool.not_eq_true', List.any_eq_false, Bool.not_eq_true, and_assoc]

end Connection

end EmbeddedHttp
