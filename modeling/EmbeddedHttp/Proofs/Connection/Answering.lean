/-
# EmbeddedHttp.Proofs.Connection.Answering -- the steps inside an answer

Inside an answer every step concerns the account at hand and nothing else
(`Connection.goes`).  Either the next phase agrees with the account in which the deed is
entered, or the connection is on its way out, or the answer is settled and the queue is
looked at.  There is one lemma for each phase.
-/
import EmbeddedHttp.Proofs.Connection.Standing

namespace EmbeddedHttp

set_option autoImplicit false

variable {Call : Type} {Answer : Call → Type} {service : Service Call Answer} {peer : Peer}
  {connection after : Connection Call Answer} {account : Account} {deed : Deed}
  {exchange : Exchange Call Answer}

/-- A deed that changes the account at hand, also while a request is being refused. -/
def Deed.Concerns (account : Account) (deed : Deed) : Prop :=
  Ledger.isOfAnswer deed = true ∨ ∃ status octets error,
    deed = .wrote (.refusal status) octets ∧ account.start = .refused error

namespace Connection

/-- What a step inside an answer leads to. -/
inductive Goes (service : Service Call Answer) (connection : Connection Call Answer)
    (account : Account) (deed : Deed) (after : Connection Call Answer) : Prop where
  | on (intake : after.intake = connection.intake)
      (closed : after.readClosed = connection.readClosed)
      (answers : after.phase.Answers service (account.enter service.serverName deed))
  | leaves (last : after.phase.isLast = true)
      (within : (account.enter service.serverName deed).octets <+:
        (account.enter service.serverName deed).due)
  | next (settled : account.Settled) (silent : deed = .other)
      (other : Connection Call Answer) (intake : other.intake = connection.intake)
      (closed : other.readClosed = connection.readClosed)
      (looks : after = other.look service)

/-! ## Turns at an outbox -/

/-- A turn at an outbox is entered as what went out. -/
theorem enter_turn (account : Account) {share : Share} {octets : Bytes} (serverName : String)
    (turn : deed = .wrote share octets ∧ octets ≠ [] ∨ deed = .other ∧ octets = []) :
    account.enter serverName deed = account.pay octets := by
  rcases turn with ⟨rfl, -⟩ | ⟨rfl, rfl⟩
  · rfl
  · rw [Account.pay_nil]
    rfl

theorem concerns_turn {share : Share} {octets : Bytes}
    (ofAnswer : share = .answer ∨ share = .apology)
    (turn : deed = .wrote share octets ∧ octets ≠ [] ∨ deed = .other ∧ octets = []) :
    deed.Concerns account := by
  rcases turn with ⟨rfl, -⟩ | ⟨rfl, rfl⟩
  · rcases ofAnswer with rfl | rfl
    · exact .inl rfl
    · exact .inl rfl
  · exact .inl rfl

/-- A turn at an outbox of an answer, behind which `more` is to go out: it drains the outbox
or part of it, or the write fails. -/
theorem goes_flush {flush : Flush} {purpose : Purpose Call Answer} {more : Bytes}
    (phase : connection.phase = .writing flush purpose) (ofAnswer : purpose.share = .answer)
    (agrees : Agrees account exchange flush.outbox.sent (flush.outbox.pending.flatten ++ more))
    (moved : connection.Moves service peer deed after)
    (drained : ∀ deed sent,
      (account.enter service.serverName deed).ending = account.ending →
      Agrees (account.enter service.serverName deed) exchange sent more →
      connection.Goes service account deed (connection.afterWriting service sent purpose none))
    (partly : ∀ deed later,
      (account.enter service.serverName deed).ending = account.ending →
      Agrees (account.enter service.serverName deed) exchange later.outbox.sent
        (later.outbox.pending.flatten ++ more) →
      Phase.Answers service (account.enter service.serverName deed) (.writing later purpose))
    (failed : ∀ fault,
      (∀ other : Exchange Call Answer, other.broken = true →
        GivenUp (account.enter service.serverName (.broke .answer)) other) →
      connection.Goes service account (.broke .answer)
        (connection.afterWriting service flush.outbox.sent purpose (some fault))) :
    deed.Concerns account ∧ connection.Goes service account deed after := by
  rcases moves_writing phase moved with
    ⟨later, octets, turn, whole, count, rfl⟩ | ⟨fault, same, rfl⟩
  · rw [ofAnswer] at turn
    refine ⟨concerns_turn (.inl rfl) turn, ?_⟩
    have entered := enter_turn account service.serverName turn
    have ending : (account.enter service.serverName deed).ending = account.ending := by
      rw [entered]
      rfl
    have paid := agrees.turn whole count
    rw [← entered] at paid
    split
    · rename_i done
      rw [(Outbox.isDrained_iff _).1 done, List.nil_append] at paid
      exact drained deed _ ending paid
    · exact .on rfl rfl (partly deed later ending paid)
  · rw [ofAnswer] at same
    subst same
    exact ⟨.inl rfl, failed fault fun _ broken => agrees.giveUp _ broken⟩

theorem goes_piece {flush : Flush} {flow : Flow}
    (phase : connection.phase = .writing flush (.piece exchange flow))
    (agrees : Agrees account exchange flush.outbox.sent flush.outbox.pending.flatten)
    (running : account.ending = .running) (moved : connection.Moves service peer deed after) :
    deed.Concerns account ∧ connection.Goes service account deed after := by
  rw [← List.append_nil flush.outbox.pending.flatten] at agrees
  refine goes_flush phase rfl agrees moved ?_ ?_ ?_
  · intro deed sent same paid
    exact .on rfl rfl (.inl ⟨paid.note, same.trans running⟩)
  · intro deed later same paid
    rw [List.append_nil] at paid
    exact ⟨paid, same.trans running⟩
  · intro fault givenUp
    exact .on rfl rfl (.inr ⟨rfl, givenUp _ rfl⟩)

/-- The head of a file is out. -/
theorem goes_sendFile {body : FileBody}
    (agrees : Agrees (account.enter service.serverName deed) exchange 0
      ((body.content.drop body.position).take (exchange.progress.fileRoom body)))
    (running : (account.enter service.serverName deed).ending = .running) :
    connection.Goes service account deed (connection.sendFile service exchange body) := by
  rw [sendFile]
  by_cases nothing : exchange.progress.fileRoom body = 0
  · rw [nothing, List.take_zero] at agrees
    simp only [nothing, if_true]
    exact .on rfl rfl (.inl ⟨agrees, running⟩)
  · simp only [nothing, if_false]
    exact .on rfl rfl ⟨agrees, running, rfl⟩

theorem goes_fileHead {flush : Flush} {body : FileBody}
    (phase : connection.phase = .writing flush (.fileHead exchange body))
    (agrees : Agrees account exchange flush.outbox.sent (flush.outbox.pending.flatten ++
      (body.content.drop body.position).take (exchange.progress.fileRoom body)))
    (running : account.ending = .running) (moved : connection.Moves service peer deed after) :
    deed.Concerns account ∧ connection.Goes service account deed after := by
  refine goes_flush phase rfl agrees moved ?_ ?_ ?_
  · intro deed sent same paid
    exact goes_sendFile paid.note (same.trans running)
  · intro deed later same paid
    exact ⟨paid, same.trans running⟩
  · intro fault givenUp
    exact .on rfl rfl (.inr ⟨rfl, givenUp _ rfl⟩)

theorem goes_lastChunk {flush : Flush}
    (phase : connection.phase = .writing flush (.lastChunk exchange))
    (agrees : Agrees account exchange flush.outbox.sent flush.outbox.pending.flatten)
    (completed : account.ending = .completed)
    (moved : connection.Moves service peer deed after) :
    deed.Concerns account ∧ connection.Goes service account deed after := by
  rw [← List.append_nil flush.outbox.pending.flatten] at agrees
  refine goes_flush phase rfl agrees moved ?_ ?_ ?_
  · intro deed sent same paid
    exact .on rfl rfl (paid.note.settle (same.trans completed))
  · intro deed later same paid
    rw [List.append_nil] at paid
    exact ⟨paid, same.trans completed⟩
  · intro fault givenUp
    exact .on rfl rfl (givenUp _ rfl).finished

/-- A page, for a request that is refused or in place of an answer, ends the connection. -/
theorem goes_page {flush : Flush} {status : Status} {facts : Option Facts}
    (phase : connection.phase = .writing flush (.errorPage status facts))
    (refused : facts = none → ∃ error, account.start = .refused error)
    (due : account.octets ++ flush.outbox.pending.flatten = account.due)
    (moved : connection.Moves service peer deed after) :
    deed.Concerns account ∧ connection.Goes service account deed after := by
  have within : account.octets <+: account.due := ⟨_, due⟩
  rcases moves_writing phase moved with
    ⟨later, octets, turn, whole, -, rfl⟩ | ⟨fault, rfl, rfl⟩
  · have concerns : deed.Concerns account := by
      cases facts with
      | some facts => exact concerns_turn (.inr rfl) turn
      | none =>
          obtain ⟨error, start⟩ := refused rfl
          rcases turn with ⟨same, -⟩ | ⟨same, -⟩
          · exact .inr ⟨status, octets, error, same, start⟩
          · rw [same]
            exact .inl rfl
    have entered := enter_turn account service.serverName turn
    have paid : (account.pay octets).octets ++ later.outbox.pending.flatten =
        (account.pay octets).due := by
      rw [← whole, ← List.append_assoc] at due
      exact due
    refine ⟨concerns, ?_⟩
    split
    · exact .leaves rfl (by rw [entered]; exact ⟨_, paid⟩)
    · refine .on rfl rfl ?_
      rw [entered]
      cases facts with
      | none => exact ⟨refused rfl, paid⟩
      | some facts => exact paid
  · cases facts with
    | none => exact ⟨.inl rfl, .leaves rfl within⟩
    | some facts => exact ⟨.inl rfl, .leaves rfl within⟩

/-! ## Turns at a file -/

theorem goes_sendingFile {transfer : Transfer}
    (phase : connection.phase = .sendingFile exchange transfer)
    (answers : Phase.Answers service account (.sendingFile exchange transfer))
    (moved : connection.Moves service peer deed after) :
    deed.Concerns account ∧ connection.Goes service account deed after := by
  obtain ⟨agrees, running, goesOn⟩ := answers
  -- once enough is out, nothing of the file is due any more
  have enough : ∀ other : Transfer, other.ended = false → other.isDone = true →
      (other.content.drop other.offset).take (other.wanted - other.sent) = [] := by
    intro other more done
    simp only [Transfer.isDone, more, Bool.or_false, decide_eq_true_eq] at done
    rw [Nat.sub_eq_zero_of_le done, List.take_zero]
  rcases moves_sendingFile phase moved with
    ⟨n, rfl, -, wanted, present, rfl⟩ | ⟨rfl, rfl⟩ | ⟨blocked, rfl, rfl⟩ | ⟨rfl, rfl⟩
  · refine ⟨.inl rfl, ?_⟩
    have parts : (transfer.content.drop transfer.offset).take (transfer.wanted - transfer.sent) =
        (transfer.content.drop transfer.offset).take n ++
          (transfer.content.drop (transfer.offset + n)).take
            (transfer.wanted - (transfer.sent + n)) := by
      have split : transfer.wanted - transfer.sent =
          n + (transfer.wanted - (transfer.sent + n)) := by omega
      rw [split, List.take_add, List.drop_drop]
    rw [parts] at agrees
    have paid := agrees.sentFile service.serverName
    have size : ((transfer.content.drop transfer.offset).take n).length = n := by
      rw [List.length_take]
      omega
    rw [size] at paid
    simp only [Nat.add_assoc] at paid
    simp only
    split
    · rename_i done
      have nothing := enough { transfer with
        offset := transfer.offset + n, sent := transfer.sent + n } goesOn done
      simp only at nothing
      rw [nothing] at paid
      exact .on rfl rfl (.inl ⟨paid.note, running⟩)
    · exact .on rfl rfl ⟨paid, running, goesOn⟩
  · exact ⟨.inl rfl, .on rfl rfl (.inl ⟨(agrees.fileEnded _).note, running⟩)⟩
  · refine ⟨.inl rfl, ?_⟩
    split
    · rename_i done
      rw [enough transfer goesOn done] at agrees
      exact .on rfl rfl (.inl ⟨agrees.note, running⟩)
    · exact .on rfl rfl ⟨agrees, running, goesOn⟩
  · exact ⟨.inl rfl, .on rfl rfl (.inr ⟨rfl, agrees.giveUp _ rfl⟩)⟩

/-! ## Turns at a task -/

/-- Something that the task handed over. -/
theorem goes_emit {emit : Emit} (agrees : Agrees account exchange 0 [])
    (running : account.ending = .running) :
    connection.Goes service account (.switched (.yielded emit))
      (connection.takeEmit service exchange emit) := by
  have progress : account.progress = exchange.progress := by
    rw [agrees.progress, Progress.noteFlushed_zero]
  have corks : ∀ emit : Emit, (headOf emit).isSome = true →
      account.enter service.serverName (.switched (.yielded emit)) =
        { account with emit := some emit } →
      connection.Goes service account (.switched (.yielded emit))
        (connection.goto (.corking exchange emit)) := by
    intro emit hasHead entered
    refine .on rfl rfl ?_
    rw [entered]
    exact ⟨⟨agrees.called, agrees.keepAlive, agrees.progress, agrees.flushed, agrees.due,
      agrees.whole, agrees.unbroken⟩, running, rfl, hasHead⟩
  cases emit with
  | head head data length => exact corks _ rfl rfl
  | file head body => exact corks _ rfl rfl
  | chunk data =>
      obtain ⟨flushed, sends⟩ := exchange.progress.pushBody_sends_nothing Outbox.empty data
      have owed := agrees.owe running flushed
        (exchange.progress.pushBody Outbox.empty data).1.pending.flatten
      have entered : account.enter service.serverName (.switched (.yielded (.chunk data))) =
          { account.owe (exchange.progress.pushBody Outbox.empty data).1.pending.flatten with
            progress := (exchange.progress.pushBody Outbox.empty data).2.1 } := by
        simp only [Account.enter, progress]
      simp only [takeEmit, drain]
      split
      · rename_i nothing
        refine .on rfl rfl (.inl ⟨?_, by rw [entered]; exact running⟩)
        rw [entered]
        rw [(Outbox.isDrained_iff _).1 nothing] at owed ⊢
        exact owed
      · refine .on rfl rfl ⟨?_, by rw [entered]; exact running⟩
        rw [entered]
        have start : (exchange.progress.pushBody Outbox.empty data).1.sent = 0 := sends
        simp only [Flush.start, start]
        exact owed

theorem goes_switching {resume : Resume}
    (phase : connection.phase = .switching exchange resume)
    (answers : Phase.Answers service account (.switching exchange resume))
    (moved : connection.Moves service peer deed after) :
    deed.Concerns account ∧ connection.Goes service account deed after := by
  obtain ⟨σ, host, before, later, step, task, ran, rfl, rfl⟩ := moves_switching phase moved
  refine ⟨.inl rfl, ?_⟩
  -- a task is resumed in step with its account, or cancelled behind a failed write
  rcases answers with ⟨agrees, running⟩ | ⟨rfl, givenUp⟩
  · have agrees : Agrees account { exchange with task := task } 0 [] :=
      ⟨agrees.called, agrees.keepAlive, agrees.progress, agrees.flushed, agrees.due,
        agrees.whole, agrees.unbroken⟩
    cases step with
    | suspended wait => exact .on rfl rfl ⟨agrees, running⟩
    | yielded emit => exact goes_emit agrees running
    | failed error => exact .on rfl rfl (agrees.fail service.serverName)
    | completed =>
        obtain ⟨ended, completed⟩ := agrees.complete running
        have unbroken : (heed { exchange with task := task }).broken = false :=
          agrees.unbroken
        simp only [afterSwitch, finishBody, unbroken, Bool.false_eq_true, if_false]
        split
        · rename_i chunked
          have chunked' : exchange.progress.isChunked = true := chunked
          rw [if_pos chunked'] at ended
          refine .on rfl rfl ⟨?_, completed⟩
          simp only [Flush.start, Outbox.push_pending, Outbox.push_sent]
          exact ended
        · rename_i plain
          have plain' : ¬ exchange.progress.isChunked = true := plain
          rw [if_neg plain'] at ended
          exact .on rfl rfl (ended.settle completed)
  · have givenUp : GivenUp account { exchange with task := task } :=
      ⟨givenUp.entered, givenUp.known, givenUp.within⟩
    rcases Task.switch_cancel ran with rfl | ⟨error, rfl⟩
    · have broken : (heed { exchange with task := task }).broken = true := givenUp.known
      simp only [afterSwitch, finishBody, broken, if_true]
      exact .on rfl rfl givenUp.complete.finished
    · exact .on rfl rfl (givenUp.fail service.serverName)

theorem goes_waiting {wait : Wait} (phase : connection.phase = .waiting exchange wait)
    (agrees : Agrees account exchange 0 []) (running : account.ending = .running)
    (moved : connection.Moves service peer deed after) :
    deed.Concerns account ∧ connection.Goes service account deed after := by
  obtain ⟨outcome, rfl, rfl⟩ := moves_waiting phase moved
  exact ⟨.inl rfl, .on rfl rfl (.inl ⟨agrees.waited _ outcome, running⟩)⟩

/-! ## Heads -/

theorem goes_corking {emit : Emit} (phase : connection.phase = .corking exchange emit)
    (answers : Phase.Answers service account (.corking exchange emit))
    (moved : connection.Moves service peer deed after) :
    deed.Concerns account ∧ connection.Goes service account deed after := by
  obtain ⟨rfl, rfl⟩ := moves_corking phase moved
  exact ⟨.inl rfl, .on rfl rfl answers⟩

theorem goes_dating {emit : Emit} (phase : connection.phase = .dating exchange emit)
    (answers : Phase.Answers service account (.dating exchange emit))
    (moved : connection.Moves service peer deed after) :
    deed.Concerns account ∧ connection.Goes service account deed after := by
  obtain ⟨agrees, running, same, hasHead⟩ := answers
  obtain ⟨request, start, facts⟩ := agrees.called
  obtain ⟨date, rfl, rfl⟩ := moves_dating phase moved
  refine ⟨.inl rfl, ?_⟩
  have progress : account.progress = exchange.progress := by
    rw [agrees.progress, Progress.noteFlushed_zero]
  have keepAlive : exchange.keepAlive = (request.keepAlive && !account.timedOut) := by
    rw [agrees.keepAlive]
    simp [Account.hopes, start, running]
  have entered : account.enter service.serverName (.dated date) =
      account.oweHead service.serverName request emit date := by
    simp only [Account.enter, start, same]
  have version : exchange.facts.version = request.version := by rw [facts]; rfl
  have method : exchange.facts.method = request.method := by rw [facts]; rfl
  cases emit with
  | chunk data => cases hasHead
  | file head body =>
      refine .on rfl rfl ?_
      rw [entered]
      simp only [Account.oweHead, headOf, writeHead, progress, ← keepAlive, ← version,
        ← method]
      refine ⟨?_, running⟩
      simp only [Flush.start, Outbox.push_sent]
      exact agrees.owe running (by rfl) _
  | head head data length =>
      cases data with
      | none =>
          refine .on rfl rfl ?_
          rw [entered]
          simp only [Account.oweHead, headOf, writeHead, progress, ← keepAlive, ← version,
            ← method]
          refine ⟨?_, running⟩
          simp only [Flush.start, Outbox.push_sent]
          exact agrees.owe running (by rfl) _
      | some data =>
          refine .on rfl rfl ?_
          rw [entered]
          simp only [Account.oweHead, headOf, writeHead, progress, ← keepAlive, ← version,
            ← method]
          refine ⟨?_, running⟩
          simp only [Flush.start, (Progress.pushBody_sends_nothing _ _ data).2,
            Outbox.push_sent]
          exact agrees.owe running (by exact (Progress.pushBody_sends_nothing _ _ data).1) _

/-! ## Pages in place of an answer -/

/-- A page is about to be written of which nothing is out. -/
theorem goes_apology {facts : Facts} (nothing : account.octets = [])
    (page : account.due = Status.internalServerError.errorPage service.serverName) :
    connection.Goes service account .other
      (connection.writePage service .internalServerError (some facts)) := by
  refine .on rfl rfl ?_
  have due : account.octets ++ (Outbox.empty.push
      (Status.internalServerError.errorPage service.serverName)).pending.flatten =
        account.due := by
    rw [nothing, page, Outbox.push_pending, List.nil_append]
  exact due

theorem goes_tellingUnstarted {facts : Facts} {fault : IoFault}
    (phase : connection.phase = .tellingUnstarted facts fault)
    (answers : Phase.Answers service account
      (.tellingUnstarted facts fault : Phase Call Answer))
    (moved : connection.Moves service peer deed after) :
    deed.Concerns account ∧ connection.Goes service account deed after := by
  obtain ⟨rfl, rfl⟩ := moves_tellingUnstarted phase moved
  exact ⟨.inl rfl, goes_apology answers.1 answers.2⟩

/-! ## The end of an answer -/

theorem goes_afterAnswer {other : Connection Call Answer} (finished : Finished account exchange)
    (intake : other.intake = connection.intake)
    (closed : other.readClosed = connection.readClosed) :
    connection.Goes service account .other (other.afterAnswer service exchange) := by
  rw [afterAnswer]
  split
  · exact .leaves rfl finished.within
  · rename_i stays
    simp only [Bool.not_eq_true, Bool.or_eq_false_iff] at stays
    exact .next (finished.settled (by rw [stays.1.1, stays.1.2]; rfl)) rfl other intake closed rfl

theorem goes_uncorking (phase : connection.phase = .uncorking exchange)
    (finished : Finished account exchange) (moved : connection.Moves service peer deed after) :
    deed.Concerns account ∧ connection.Goes service account deed after := by
  obtain ⟨rfl, rfl⟩ := moves_uncorking phase moved
  refine ⟨.inl rfl, ?_⟩
  split
  · exact .on rfl rfl finished
  · exact goes_afterAnswer finished rfl rfl

theorem goes_tellingAccess (phase : connection.phase = .tellingAccess exchange)
    (finished : Finished account exchange) (moved : connection.Moves service peer deed after) :
    deed.Concerns account ∧ connection.Goes service account deed after := by
  obtain ⟨rfl, rfl⟩ := moves_tellingAccess phase moved
  exact ⟨.inl rfl, goes_afterAnswer finished rfl rfl⟩

theorem goes_tellingFailure {error : AppError}
    (phase : connection.phase = .tellingFailure exchange error)
    (failed : Failed service.serverName account exchange)
    (moved : connection.Moves service peer deed after) :
    deed.Concerns account ∧ connection.Goes service account deed after := by
  obtain ⟨rfl, rfl⟩ := moves_tellingFailure phase moved
  refine ⟨.inl rfl, ?_⟩
  rw [afterFailure]
  split
  · rename_i unanswered
    simp only [Bool.and_eq_true, Bool.not_eq_true'] at unanswered
    obtain ⟨nothing, page⟩ := failed.page unanswered.1 unanswered.2
    exact goes_apology nothing page
  · exact .leaves rfl failed.within

/-- **Every step inside an answer goes on with it, leaves, or comes behind its end.** -/
theorem goes (answers : connection.phase.Answers service account)
    (moved : connection.Moves service peer deed after) :
    deed.Concerns account ∧ connection.Goes service account deed after := by
  cases phase : connection.phase with
  | switching exchange resume =>
      rw [phase] at answers
      exact goes_switching phase answers moved
  | waiting exchange wait =>
      rw [phase] at answers
      exact goes_waiting phase answers.1 answers.2 moved
  | corking exchange emit =>
      rw [phase] at answers
      exact goes_corking phase answers moved
  | dating exchange emit =>
      rw [phase] at answers
      exact goes_dating phase answers moved
  | sendingFile exchange transfer =>
      rw [phase] at answers
      exact goes_sendingFile phase answers moved
  | uncorking exchange =>
      rw [phase] at answers
      exact goes_uncorking phase answers moved
  | tellingAccess exchange =>
      rw [phase] at answers
      exact goes_tellingAccess phase answers moved
  | tellingFailure exchange error =>
      rw [phase] at answers
      exact goes_tellingFailure phase answers moved
  | tellingUnstarted facts fault =>
      rw [phase] at answers
      exact goes_tellingUnstarted phase answers moved
  | writing flush purpose =>
      rw [phase] at answers
      cases purpose with
      | interimWhileReading | interimBefore _ => cases answers
      | piece exchange flow => exact goes_piece phase answers.1 answers.2 moved
      | fileHead exchange body => exact goes_fileHead phase answers.1 answers.2 moved
      | lastChunk exchange => exact goes_lastChunk phase answers.1 answers.2 moved
      | errorPage status facts =>
          cases facts with
          | none => exact goes_page phase (fun _ => answers.1) answers.2 moved
          | some facts => exact goes_page phase (fun none => by cases none) answers moved
  | _ =>
      rw [phase] at answers
      cases answers

end Connection

end EmbeddedHttp
