/-
# EmbeddedHttp.Proofs.Connection.Standing -- how a connection stands with its ledger

In every phase the ledger tells how far the answers are (`Standing`).  Between answers
all of them are settled, and at most an interim answer to the next request went out
(`Connection.Waits`).  Inside an answer only the last account is open, and it agrees with
what the phase holds (`Phase.Answers`).  On the way out nothing is written any more.

The starts of the answers, with the one that the phase is about to begin, are those of
the requests that were taken from the queue.
-/
import EmbeddedHttp.Proofs.Connection.Balance
import EmbeddedHttp.Proofs.Request.Taking

namespace EmbeddedHttp

set_option autoImplicit false

open Intake (Reads)

/-! ## Ledgers -/

namespace Ledger

/-- Every answer is out as a whole, and another may follow. -/
def AllSettled (answers : List Account) : Prop :=
  ∀ account ∈ answers, account.Sound ∧ account.Settled

/-- How the answers began. -/
def starts (ledger : Ledger) : List Start := ledger.answers.map (·.start)

/-- What went out is the front of what was due, answer by answer, and nothing stands behind
an answer that is not settled. -/
structure Sound (ledger : Ledger) : Prop where
  accounts : ∀ account ∈ ledger.answers, account.Sound
  ahead : ledger.ahead <+: Status.interim
  settled : ∀ before account later, ledger.answers = before ++ account :: later →
    later ≠ [] ∨ ledger.ahead ≠ [] → account.Settled

theorem AllSettled.sound {ledger : Ledger} (settled : AllSettled ledger.answers)
    (ahead : ledger.ahead <+: Status.interim) : ledger.Sound where
  accounts account member := (settled account member).1
  ahead := ahead
  settled before account later same _ :=
    (settled account (by rw [same]; exact List.mem_append_right _ List.mem_cons_self)).2

theorem AllSettled.sound_last {before : List Account} {account : Account}
    (settled : AllSettled before) (sound : account.Sound) :
    Sound ⟨before ++ [account], []⟩ where
  accounts other member := by
    rcases List.mem_append.1 member with inside | last
    · exact (settled other inside).1
    · rw [List.mem_singleton.1 last]
      exact sound
  ahead := List.nil_prefix
  settled first other later same behind := by
    have something := behind.resolve_right fun none => none rfl
    obtain ⟨between, final, rfl⟩ := List.eq_nil_or_concat later |>.resolve_left something
    have earlier : before = first ++ other :: between := by
      have spelled : before ++ [account] = (first ++ other :: between) ++ [final] := by
        simpa using same
      exact (List.append_inj' spelled rfl).1
    exact (settled other (by rw [earlier]; simp)).2

theorem AllSettled.push {before : List Account} {account : Account}
    (settled : AllSettled before) (sound : account.Sound) (last : account.Settled) :
    AllSettled (before ++ [account]) := by
  intro other member
  rcases List.mem_append.1 member with inside | same
  · exact settled other inside
  · rw [List.mem_singleton.1 same]
    exact ⟨sound, last⟩

theorem change_last (before : List Account) (account : Account) (f : Account → Account) :
    change ⟨before ++ [account], []⟩ f = ⟨before ++ [f account], []⟩ := by
  simp [change]

theorem change_same (ledger : Ledger) {f : Account → Account}
    (same : ∀ account, f account = account) :
    ledger.change f = ledger := by
  rw [change]
  split
  · rename_i account last
    obtain ⟨before, spelled⟩ := List.getLast?_eq_some_iff.1 last
    obtain ⟨answers, ahead⟩ := ledger
    simp only at spelled
    subst spelled
    simp [same]
  · rfl

/-- Does a deed concern the answer at hand only? -/
def isOfAnswer : Deed → Bool
  | .heard _ | .called _ | .unstarted _ | .wrote .interim _ | .wrote (.refusal _) _ => false
  | _ => true

/-- Does a deed leave every account alone? -/
def isSilent : Deed → Bool
  | .heard _ | .other => true
  | .broke share => share != .answer
  | _ => false

theorem enter_silent (serverName : String) (ledger : Ledger) {deed : Deed}
    (silent : isSilent deed = true) : ledger.enter serverName deed = ledger := by
  cases deed with
  | heard received => exact change_same _ fun _ => rfl
  | other => exact change_same _ fun _ => rfl
  | broke share =>
      cases share with
      | answer => cases silent
      | _ => exact change_same _ fun _ => rfl
  | _ => cases silent

/-- A deed changes the account at hand, also while a request is being refused. -/
theorem enter_last (serverName : String) (before : List Account) (account : Account) {deed : Deed}
    (concerns : isOfAnswer deed = true ∨ ∃ status octets error,
      deed = .wrote (.refusal status) octets ∧ account.start = .refused error) :
    enter serverName ⟨before ++ [account], []⟩ deed =
      ⟨before ++ [account.enter serverName deed], []⟩ := by
  rcases concerns with ofAnswer | ⟨status, octets, error, rfl, start⟩
  · have changes : enter serverName ⟨before ++ [account], []⟩ deed =
        change ⟨before ++ [account], []⟩ (·.enter serverName deed) := by
      cases deed with
      | called request | unstarted request => cases ofAnswer
      | wrote share octets => cases share <;> first | rfl | cases ofAnswer
      | _ => rfl
    rw [changes, change_last]
  · have refusing : isRefusing ⟨before ++ [account], []⟩ = true := by
      simp [isRefusing, start]
    rw [enter, if_pos refusing, change_last]
    rfl

/-- The page for a request that carries an error begins an answer. -/
theorem enter_refusal (serverName : String) {ledger : Ledger} (settled : AllSettled ledger.answers)
    (status : Status) (octets : Bytes) :
    ∃ account, ledger.enter serverName (.wrote (.refusal status) octets) =
        ⟨ledger.answers ++ [account], []⟩ ∧
      account.start = .refused status ∧ account.interim = ledger.ahead ∧
        account.octets = octets ∧ account.due = status.errorPage serverName := by
  have idle : ledger.isRefusing = false := by
    cases last : ledger.answers.getLast? with
    | none => simp [isRefusing, last]
    | some account =>
        have kept := (settled account (List.mem_of_getLast? last)).2.kept
        cases start : account.start with
        | refused error => simp [Account.kept, start] at kept
        | called request => simp [isRefusing, last, start]
  refine ⟨((Account.opened (.refused status) ledger.ahead).owe
    (status.errorPage serverName)).pay octets, ?_, rfl, rfl, List.nil_append _, List.nil_append _⟩
  rw [enter, if_neg (by rw [idle]; decide)]
  rfl

theorem octets_push (answers : List Account) (account : Account) :
    octets ⟨answers ++ [account], []⟩ =
      (answers.flatMap fun account => account.interim ++ account.octets) ++
        (account.interim ++ account.octets) := by
  simp [octets]

end Ledger

open Ledger (AllSettled)

/-! ## Phases -/

variable {Call : Type} {Answer : Call → Type}

namespace Phase

/-- The answer that a phase is about to begin. -/
def announced : Phase Call Answer → List Start
  | .spawning request | .writing _ (.interimBefore request) => [.called request]
  | .writing _ (.errorPage status none) => [.refused status]
  | _ => []

/-- On the way out nothing is written. -/
def isLast : Phase Call Answer → Bool
  | .uncorkingPage _ _ _ | .tellingPage _ | .leaving | .hurrying | .closed | .broken _
  | .overflowed => true
  | _ => false

/-- What the account of an answer holds in the phases of an answer. -/
def Answers (service : Service Call Answer) (account : Account) : Phase Call Answer → Prop
  | .switching exchange resume =>
      Agrees account exchange 0 [] ∧ account.ending = .running ∨
        resume = .cancel ∧ GivenUp account exchange
  | .waiting exchange _ => Agrees account exchange 0 [] ∧ account.ending = .running
  | .corking exchange emit | .dating exchange emit =>
      Agrees account exchange 0 [] ∧ account.ending = .running ∧ account.emit = some emit ∧
        (Connection.headOf emit).isSome = true
  | .writing flush (.piece exchange _) =>
      Agrees account exchange flush.outbox.sent flush.outbox.pending.flatten ∧
        account.ending = .running
  | .writing flush (.fileHead exchange body) =>
      Agrees account exchange flush.outbox.sent (flush.outbox.pending.flatten ++
          (body.content.drop body.position).take (exchange.progress.fileRoom body)) ∧
        account.ending = .running
  | .writing flush (.lastChunk exchange) =>
      Agrees account exchange flush.outbox.sent flush.outbox.pending.flatten ∧
        account.ending = .completed
  | .writing flush (.errorPage _ none) =>
      (∃ status, account.start = .refused status) ∧
        account.octets ++ flush.outbox.pending.flatten = account.due
  | .writing flush (.errorPage _ (some _)) =>
      account.octets ++ flush.outbox.pending.flatten = account.due
  | .sendingFile exchange transfer =>
      Agrees account
          { exchange with progress := { exchange.progress with
              bodySent := exchange.progress.bodySent + transfer.sent } }
          transfer.sent ((transfer.content.drop transfer.offset).take
            (transfer.wanted - transfer.sent)) ∧
        account.ending = .running ∧ transfer.ended = false
  | .uncorking exchange | .tellingAccess exchange => Finished account exchange
  | .tellingFailure exchange _ => Failed service.serverName account exchange
  | .tellingUnstarted _ _ => account.octets = [] ∧
      account.due = Status.internalServerError.errorPage service.serverName
  | _ => False

theorem Answers.within {service : Service Call Answer} {account : Account}
    {phase : Phase Call Answer} (answers : phase.Answers service account) :
    account.octets <+: account.due := by
  cases phase with
  | switching exchange resume =>
      rcases answers with ⟨agrees, -⟩ | ⟨-, givenUp⟩
      · exact agrees.within
      · exact givenUp.within
  | writing flush purpose =>
      cases purpose with
      | piece _ _ | fileHead _ _ | lastChunk _ => exact answers.1.within
      | errorPage status facts =>
          cases facts with
          | none => exact ⟨_, answers.2⟩
          | some facts => exact ⟨_, answers⟩
      | _ => cases answers
  | waiting _ _ | corking _ _ | dating _ _ | sendingFile _ _ => exact answers.1.within
  | uncorking _ | tellingAccess _ => exact Finished.within answers
  | tellingFailure _ _ => exact Failed.within answers
  | tellingUnstarted _ _ =>
      rw [answers.1]
      exact List.nil_prefix
  | _ => cases answers

end Phase

/-! ## Connections -/

namespace Connection

/-- The intake and whether more is read, once a fault of reading will have been told. -/
def reading (connection : Connection Call Answer) : Intake × Bool :=
  match connection.phase with
  | .tellingReadFault _ _ => (connection.intake.cutShort .internalServerError, true)
  | _ => (connection.intake, connection.readClosed)

/-- Nothing of an interim answer to the next request went out, or all of it. -/
def Ahead (connection : Connection Call Answer) (ahead : Bytes) : Prop :=
  ahead = [] ∨ ahead = Status.interim ∧ connection.reading.1.FirstTold

/-- What holds between answers, when `ahead` went out of an interim answer to the next
request. -/
def Waits (service : Service Call Answer) (ahead : Bytes) (connection : Connection Call Answer) :
    Prop :=
  match connection.phase with
  | .receiving idle =>
      connection.Ahead ahead ∧ connection.readClosed = false ∧
        idle = connection.intake.parser.isIdle
  | .tellingReadFault _ idle =>
      connection.Ahead ahead ∧ idle = connection.intake.parser.isIdle
  | .writing flush .interimWhileReading =>
      ahead ++ flush.outbox.pending.flatten = Status.interim ∧ connection.intake.FirstTold ∧
        connection.readClosed = false ∧ connection.isIdle = connection.intake.parser.isIdle
  | .writing flush (.interimBefore request) =>
      ahead ++ flush.outbox.pending.flatten = Status.interim ∧ request.failure = none
  | .spawning request => (ahead = [] ∨ ahead = Status.interim) ∧ request.failure = none
  | .writing flush (.errorPage status none) =>
      (ahead = [] ∨ ahead = Status.interim) ∧ flush.outbox.sent = 0 ∧
        flush.outbox.pending.flatten = status.errorPage service.serverName
  | _ => False

theorem Waits.ahead {service : Service Call Answer} {ahead : Bytes}
    {connection : Connection Call Answer} (waits : connection.Waits service ahead) :
    ahead <+: Status.interim := by
  have whole : ahead = [] ∨ ahead = Status.interim → ahead <+: Status.interim := by
    rintro (rfl | rfl)
    · exact List.nil_prefix
    · exact List.prefix_rfl
  have told : connection.Ahead ahead → ahead <+: Status.interim := fun ahead =>
    whole (ahead.imp_right And.left)
  simp only [Waits] at waits
  split at waits
  · exact told waits.1
  · exact told waits.1
  · exact ⟨_, waits.1⟩
  · exact ⟨_, waits.1⟩
  · exact whole waits.1
  · exact whole waits.1
  · cases waits

variable {service : Service Call Answer} {connection : Connection Call Answer}
  {request : Request} {rest : RequestQueue}

theorem dispatch_refused {status : Status} (failure : request.failure = some status) :
    connection.dispatch service request rest =
      { connection with intake := { connection.intake with queue := rest } }.writePage service
        status none := by
  simp [dispatch, failure]

theorem dispatch_waits (failure : request.failure = none)
    (waits : request.expectContinue = true) :
    connection.dispatch service request rest =
      { connection with intake := { connection.intake with queue := rest } }.writeInterim service
        (.interimBefore request.settled) := by
  simp [dispatch, failure, waits, Request.settled]

theorem dispatch_calls (failure : request.failure = none)
    (plain : request.expectContinue = false) :
    connection.dispatch service request rest =
      { connection with intake := { connection.intake with queue := rest } }.goto
        (.spawning request) := by
  simp [dispatch, failure, plain]

end Connection

/-- How a connection that heard `heard` stands with its ledger. -/
inductive Standing (service : Service Call Answer) (heard : List Received) (ledger : Ledger)
    (connection : Connection Call Answer) : Prop where
  | between (taken : List Request)
      (reads : Reads service.limits heard taken connection.reading.1 connection.reading.2)
      (settled : AllSettled ledger.answers)
      (starts : ledger.starts ++ connection.phase.announced = taken.map Start.of)
      (waits : connection.Waits service ledger.ahead)
  | answering (taken : List Request) (before : List Account) (account : Account)
      (reads : Reads service.limits heard taken connection.intake connection.readClosed)
      (last : ledger = ⟨before ++ [account], []⟩)
      (settled : AllSettled before)
      (interim : account.interim = [] ∨ account.interim = Status.interim)
      (starts : ledger.starts = taken.map Start.of)
      (answers : connection.phase.Answers service account)
  | leaving (last : connection.phase.isLast = true)
      (sound : ledger.Sound)
      (starts : ledger.starts <+:
        (Intake.hearAll service.limits heard).queue.items.map Start.of)

namespace Standing

variable {service : Service Call Answer} {heard : List Received} {ledger : Ledger}
  {connection after : Connection Call Answer} {taken : List Request}

/-- The starts of requests that were taken are those of the requests that arrived first. -/
theorem starts_of_reads {limits : Limits} {intake : Intake} {closed : Bool} {starts : List Start}
    (reads : Reads limits heard taken intake closed) (first : starts <+: taken.map Start.of) :
    starts <+: (Intake.hearAll limits heard).queue.items.map Start.of := by
  have arrived := reads.takenFirst.map Start.of
  rw [List.map_map] at arrived
  have same : Start.of ∘ Request.settled = Start.of := funext Start.of_settled
  rw [same] at arrived
  exact first.trans arrived

/-- However a connection stands, its ledger is in order. -/
theorem inOrder (standing : Standing service heard ledger connection) :
    ledger.Sound ∧ ledger.starts <+:
      (Intake.hearAll service.limits heard).queue.items.map Start.of := by
  cases standing with
  | between taken reads settled starts waits =>
      exact ⟨settled.sound waits.ahead, starts_of_reads reads ⟨_, starts⟩⟩
  | answering taken before account reads last settled interim starts answers =>
      subst last
      exact ⟨settled.sound_last ⟨interim, answers.within⟩,
        starts_of_reads reads (starts ▸ List.prefix_rfl)⟩
  | leaving last sound starts => exact ⟨sound, starts⟩

/-- A connection may begin to leave at any time. -/
theorem leaves (standing : Standing service heard ledger connection)
    (last : after.phase.isLast = true) : Standing service heard ledger after :=
  .leaving last standing.inOrder.1 standing.inOrder.2

/-- The first request is taken up: it is refused, told to go on, or its task is started. -/
theorem dispatch (reads : Reads service.limits heard taken connection.intake connection.readClosed)
    (settled : AllSettled ledger.answers) (starts : ledger.starts = taken.map Start.of)
    (whole : ledger.ahead = [] ∨ ledger.ahead = Status.interim) {request : Request}
    {rest : List Request} (items : connection.intake.queue.items = request :: rest)
    (ready : request.isReady = true)
    (nothingAhead : request.expectContinue = true → ledger.ahead = []) :
    Standing service heard ledger (connection.dispatch service request ⟨rest⟩) := by
  have took := reads.take items ready
  have startsOf : ∀ start, Start.of request.settled = start →
      ledger.starts ++ [start] = (taken ++ [request.settled]).map Start.of := by
    rintro start rfl
    rw [starts, List.map_append]
    rfl
  cases failure : request.failure with
  | some status =>
      rw [Connection.dispatch_refused failure]
      refine .between _ took settled (startsOf (.refused status) ?_)
        ⟨whole, Outbox.push_sent (status.errorPage service.serverName),
          Outbox.push_pending (status.errorPage service.serverName)⟩
      simp [Start.of, Request.settled, failure]
  | none =>
      have called : Start.of request.settled = .called request.settled := by
        simp [Start.of, Request.settled, failure]
      by_cases waits : request.expectContinue = true
      · rw [Connection.dispatch_waits failure waits]
        refine .between _ took settled (startsOf (.called request.settled) called) ⟨?_, failure⟩
        rw [nothingAhead waits, List.nil_append]
        exact Outbox.push_pending Status.interim
      · have plain := Bool.eq_false_iff.2 waits
        have same : request.settled = request := by rw [Request.settled, ← plain]
        rw [Connection.dispatch_calls failure plain]
        exact .between _ took settled (startsOf (.called request) (by rw [called, same]))
          ⟨whole, failure⟩

/-- While the first request is still on its way the connection reads on, after the interim
answer that the request may wait for. -/
theorem readOn (reads : Reads service.limits heard taken connection.intake connection.readClosed)
    (isOpen : connection.readClosed = false) (settled : AllSettled ledger.answers)
    (starts : ledger.starts ++ [] = taken.map Start.of)
    (ahead : ledger.ahead = [] ∨ ledger.ahead = Status.interim ∧ connection.intake.FirstTold)
    {request : Request} {rest : List Request}
    (items : connection.intake.queue.items = request :: rest)
    (unready : request.isReady = false)
    (nothingAhead : request.expectContinue = true → ledger.ahead = []) :
    Standing service heard ledger
      (if request.expectContinue then
        { connection with
          intake := { connection.intake with queue := ⟨request.settled :: rest⟩ } }.writeInterim
          service .interimWhileReading
      else connection.awaitMore) := by
  have readsOn := reads
  rw [isOpen] at readsOn
  have inMessage := ((readsOn.reading rfl).1.unready items unready).2
  have notIdle : ∀ queue : RequestQueue,
      Intake.isIdle ⟨connection.intake.parser, queue⟩ = connection.intake.parser.isIdle :=
    fun queue => by rw [Intake.isIdle, inMessage, Bool.and_false]
  split
  · rename_i waits
    have told := readsOn.settleFirst items
    rw [← isOpen] at told
    refine .between taken told settled starts
      ⟨?_, readsOn.firstTold items unready waits, isOpen, notIdle _⟩
    rw [nothingAhead waits, List.nil_append]
    exact Outbox.push_pending Status.interim
  · exact .between taken reads settled starts ⟨ahead, isOpen, notIdle _⟩

/-- **Looking at the queue takes up the next request in order of arrival.** -/
theorem look (reads : Reads service.limits heard taken connection.intake connection.readClosed)
    (settled : AllSettled ledger.answers) (starts : ledger.starts = taken.map Start.of)
    (ahead : ledger.ahead = [] ∨ ledger.ahead = Status.interim ∧ connection.intake.FirstTold) :
    Standing service heard ledger (connection.look service) := by
  have whole : ledger.ahead = [] ∨ ledger.ahead = Status.interim := ahead.imp_right And.left
  have aheadFirst : ledger.ahead <+: Status.interim := by
    rcases whole with none | all
    · rw [none]
      exact List.nil_prefix
    · exact all ▸ List.prefix_rfl
  have out : Standing service heard ledger connection.leave :=
    .leaving rfl (settled.sound aheadFirst) (starts_of_reads reads (starts ▸ List.prefix_rfl))
  have unannounced : ledger.starts ++ [] = taken.map Start.of := by rw [starts, List.append_nil]
  cases items : connection.intake.queue.items with
  | nil =>
      simp only [Connection.look, items]
      split
      · exact out
      · rename_i goesOn
        have idle : connection.isIdle = connection.intake.parser.isIdle := by
          simp [Connection.isIdle, Intake.isIdle, RequestQueue.isEmpty, items]
        exact .between taken reads settled unannounced
          ⟨ahead, Bool.eq_false_iff.2 goesOn, idle⟩
  | cons request rest =>
      -- the first request was told to go on only if it does not wait
      have nothingAhead : request.expectContinue = true → ledger.ahead = [] := by
        intro waits
        refine ahead.resolve_right fun told => ?_
        obtain ⟨-, first, others, same, plain, -⟩ := told
        rw [items] at same
        obtain ⟨rfl, -⟩ := List.cons.inj same
        rw [waits] at plain
        cases plain
      simp only [Connection.look, items]
      split
      · rename_i ready
        exact dispatch reads settled starts whole items ready nothingAhead
      · rename_i unready
        split
        · exact out
        · rename_i goesOn
          exact readOn reads (Bool.eq_false_iff.2 goesOn) settled unannounced ahead items
            (Bool.eq_false_iff.2 unready) nothingAhead

end Standing

end EmbeddedHttp
