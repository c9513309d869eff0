/-
# EmbeddedHttp.Proofs.Connection.Order -- answers leave in order of arrival

Every step keeps a connection standing with its ledger (`Connection.follows`), so every
run does (`Connection.Run.stands`).  What a run wrote is then known: answer by answer,
each one behind its interim answer if there was one, in the order in which the requests
arrived, and nothing behind an answer that is not out as a whole or not kept
(`Connection.Run.answers_in_order`).
-/
import EmbeddedHttp.Proofs.Connection.Answering
import EmbeddedHttp.Proofs.Connection.Obliging

namespace EmbeddedHttp

set_option autoImplicit false

open Intake (Reads)
open Ledger (AllSettled)

variable {Call : Type} {Answer : Call → Type} {service : Service Call Answer} {peer : Peer}
  {connection after : Connection Call Answer} {heard : List Received} {ledger : Ledger}
  {deed : Deed} {taken : List Request}

theorem Deed.heardIn_quiet (quiet : ∀ received, deed ≠ .heard received) :
    Deed.heardIn [deed] = [] := by
  cases deed with
  | heard received => exact absurd rfl (quiet received)
  | _ => rfl

/-- What a step keeps: the connection stands with the ledger in which the deed is entered,
what went out is entered, and the application is called only for a request that carries no
error. -/
structure Follows (service : Service Call Answer) (heard : List Received) (ledger : Ledger)
    (deed : Deed) (after : Connection Call Answer) : Prop where
  standing : Standing service (heard ++ Deed.heardIn [deed])
    (ledger.enter service.serverName deed) after
  octets : (ledger.enter service.serverName deed).octets = ledger.octets ++ deed.octets
  called : ∀ request, deed = .called request → request.failure = none

/-- A deed that leaves every account alone. -/
theorem Follows.silent (silent : Ledger.isSilent deed = true)
    (standing : Standing service (heard ++ Deed.heardIn [deed]) ledger after) :
    Follows service heard ledger deed after := by
  have same := ledger.enter_silent service.serverName silent
  refine ⟨by rw [same]; exact standing, ?_, fun request called => ?_⟩
  · rw [same]
    cases deed with
    | heard _ | other | broke _ => exact (List.append_nil _).symm
    | _ => cases silent
  · rw [called] at silent
    cases silent

/-- Nothing that matters happened. -/
theorem Follows.other (standing : Standing service heard ledger after) :
    Follows service heard ledger .other after := by
  refine .silent rfl ?_
  rw [Deed.heardIn_quiet (fun _ same => by cases same), List.append_nil]
  exact standing

/-- The socket failed for good while no answer was written. -/
theorem Follows.broke {share : Share} (aside : (share != .answer) = true)
    (standing : Standing service heard ledger after) :
    Follows service heard ledger (.broke share) after := by
  refine .silent aside ?_
  rw [Deed.heardIn_quiet (fun _ same => by cases same), List.append_nil]
  exact standing

/-- Octets of an interim answer went out. -/
theorem Follows.interim {octets : Bytes}
    (turn : deed = .wrote .interim octets ∧ octets ≠ [] ∨ deed = .other ∧ octets = [])
    (standing : Standing service heard { ledger with ahead := ledger.ahead ++ octets } after) :
    Follows service heard ledger deed after := by
  rcases turn with ⟨rfl, -⟩ | ⟨rfl, rfl⟩
  · refine ⟨?_, ?_, fun request called => by cases called⟩
    · rw [Deed.heardIn_quiet (fun _ same => by cases same), List.append_nil]
      exact standing
    · simp only [Ledger.enter, Ledger.octets, Deed.octets, List.append_assoc]
  · rw [List.append_nil] at standing
    exact .other standing

namespace Connection

/-! ## Between answers -/

/-- Reading gave nothing more: between messages there is nobody to answer, and otherwise
the message that was being received is refused. -/
theorem stands_cutShort {status : Status} {idle : Bool}
    (reads : Reads service.limits heard taken (connection.intake.cutShort status) true)
    (settled : AllSettled ledger.answers) (starts : ledger.starts = taken.map Start.of)
    (ahead : ledger.ahead = [] ∨
      ledger.ahead = Status.interim ∧ (connection.intake.cutShort status).FirstTold)
    (between : idle = connection.intake.parser.isIdle) :
    Standing service heard ledger
      (if idle then connection.leave else (connection.closeReading status).look service) := by
  by_cases isIdle : idle = true
  · rw [if_pos isIdle]
    have looked : Standing service heard ledger
        ({ connection with
          intake := connection.intake.cutShort status
          readClosed := true }.look service) :=
      Standing.look reads settled starts ahead
    exact looked.leaves rfl
  · rw [if_neg isIdle]
    have cut : connection.intake.cutShort status =
        { connection.intake with queue := connection.intake.queue.recordFailure status } := by
      rw [Intake.cutShort, ← between, if_neg isIdle]
    rw [cut] at reads ahead
    exact Standing.look reads settled starts ahead

theorem stands_absorb {b : UInt8} {rest : Bytes}
    (reads : Reads service.limits heard taken connection.intake false)
    (settled : AllSettled ledger.answers) (starts : ledger.starts = taken.map Start.of)
    (ahead : ledger.ahead = [] ∨ ledger.ahead = Status.interim ∧ connection.intake.FirstTold) :
    Standing service (heard ++ [.data (b :: rest)]) ledger
      (connection.absorb service (b :: rest)) := by
  have told : ledger.ahead = [] ∨ ledger.ahead = Status.interim ∧
      (connection.intake.feed service.limits (b :: rest)).intake.FirstTold :=
    ahead.imp_right fun told => ⟨told.1, Intake.feed_firstTold _ told.2 _⟩
  have looked : ∀ stopped : Bool,
      ((connection.intake.feed service.limits (b :: rest)).intake.parser.isUpgraded = true →
        stopped = true) →
      Standing service (heard ++ [.data (b :: rest)]) ledger
        ({ connection with
          intake := (connection.intake.feed service.limits (b :: rest)).intake
          readClosed := stopped }.look service) :=
    fun stopped stops => Standing.look (reads.feed b rest stopped stops) settled starts told
  rw [absorb]
  split
  · exact (looked true fun _ => rfl).leaves rfl
  · exact looked _ fun upgraded => by rw [upgraded, Bool.or_true]

theorem follows_receiving {idle : Bool} (phase : connection.phase = .receiving idle)
    (reads : Reads service.limits heard taken connection.intake connection.readClosed)
    (settled : AllSettled ledger.answers) (starts : ledger.starts = taken.map Start.of)
    (ahead : ledger.ahead = [] ∨ ledger.ahead = Status.interim ∧ connection.intake.FirstTold)
    (isOpen : connection.readClosed = false) (between : idle = connection.intake.parser.isIdle)
    (moved : connection.Moves service peer deed after) :
    Follows service heard ledger deed after := by
  obtain ⟨received, rfl, rfl⟩ := moves_receiving phase moved
  rw [isOpen] at reads
  have told : ∀ status, ledger.ahead = [] ∨
      ledger.ahead = Status.interim ∧ (connection.intake.cutShort status).FirstTold :=
    fun status => ahead.imp_right fun told => ⟨told.1, told.2.cutShort status⟩
  refine .silent rfl ?_
  -- a timeout, an error and the end of the stream all cut short what is being read
  have nothing : (∀ b rest, received ≠ .data (b :: rest)) →
      Standing service (heard ++ [received]) ledger
        (if idle then connection.leave
          else (connection.closeReading (Intake.lapse received)).look service) :=
    fun nothing => stands_cutShort (reads.lapse received nothing) settled starts (told _) between
  cases received with
  | timedOut => exact nothing fun _ _ same => by cases same
  | failed fault =>
      simp only [afterReceive]
      split
      · exact nothing fun _ _ same => by cases same
      · have lapsed := reads.lapse (.failed fault) fun _ _ same => by cases same
        exact .between taken lapsed settled (by rw [starts]; exact List.append_nil _)
          ⟨told _, between⟩
  | data bytes =>
      cases bytes with
      | cons b rest => exact stands_absorb reads settled starts ahead
      | nil =>
          have lapsed := nothing fun _ _ same => by cases same
          simp only [afterReceive]
          by_cases isIdle : idle = true
          · rw [if_pos isIdle]
            -- between messages there is nothing to cut short, and the queue is answered
            have cut : ∀ status, connection.intake.cutShort status = connection.intake := by
              intro status
              rw [Intake.cutShort, ← between, if_pos isIdle]
            have ended := reads.lapse (.data []) fun _ _ same => by cases same
            rw [cut] at ended
            exact Standing.look ended settled starts ahead
          · rw [if_neg isIdle] at lapsed ⊢
            exact lapsed

theorem follows_tellingReadFault {fault : IoFault} {idle : Bool}
    (phase : connection.phase = .tellingReadFault fault idle)
    (reads : Reads service.limits heard taken
      (connection.intake.cutShort .internalServerError) true)
    (settled : AllSettled ledger.answers) (starts : ledger.starts = taken.map Start.of)
    (ahead : ledger.ahead = [] ∨ ledger.ahead = Status.interim ∧
      (connection.intake.cutShort .internalServerError).FirstTold)
    (between : idle = connection.intake.parser.isIdle)
    (moved : connection.Moves service peer deed after) :
    Follows service heard ledger deed after := by
  obtain ⟨rfl, rfl⟩ := moves_tellingReadFault phase moved
  exact .other (stands_cutShort reads settled starts ahead between)

/-- A turn at an outbox with an interim answer. -/
theorem follows_interim {flush : Flush} {purpose : Purpose Call Answer}
    (phase : connection.phase = .writing flush purpose) (interim : purpose.share = .interim)
    (standing : Standing service heard ledger connection)
    (whole : ledger.ahead ++ flush.outbox.pending.flatten = Status.interim)
    (moved : connection.Moves service peer deed after)
    (drained : ∀ octets sent, ledger.ahead ++ octets = Status.interim →
      Standing service heard { ledger with ahead := ledger.ahead ++ octets }
        (connection.afterWriting service sent purpose none))
    (partly : ∀ octets later,
      ledger.ahead ++ octets ++ later.outbox.pending.flatten = Status.interim →
      Standing service heard { ledger with ahead := ledger.ahead ++ octets }
        (connection.goto (.writing later purpose)))
    (failed : ∀ sent fault,
      (connection.afterWriting service sent purpose (some fault)).phase.isLast = true) :
    Follows service heard ledger deed after := by
  rcases moves_writing phase moved with
    ⟨later, octets, turn, more, -, rfl⟩ | ⟨fault, same, rfl⟩
  · rw [interim] at turn
    rw [← more, ← List.append_assoc] at whole
    refine .interim turn ?_
    split
    · rename_i done
      rw [(Outbox.isDrained_iff _).1 done, List.append_nil] at whole
      exact drained octets _ whole
    · exact partly octets later whole
  · rw [interim] at same
    subst same
    exact .broke rfl (standing.leaves (failed _ fault))

theorem follows_interimWhileReading {flush : Flush}
    (phase : connection.phase = .writing flush .interimWhileReading)
    (reads : Reads service.limits heard taken connection.intake connection.readClosed)
    (settled : AllSettled ledger.answers) (starts : ledger.starts ++ [] = taken.map Start.of)
    (standing : Standing service heard ledger connection)
    (waits : connection.Waits service ledger.ahead)
    (moved : connection.Moves service peer deed after) :
    Follows service heard ledger deed after := by
  simp only [Waits, phase] at waits
  obtain ⟨whole, told, isOpen, idle⟩ := waits
  refine follows_interim phase rfl standing whole moved ?_ ?_ fun _ _ => rfl
  · intro octets sent whole
    exact .between taken reads settled starts ⟨.inr ⟨whole, told⟩, isOpen, idle⟩
  · intro octets later whole
    exact .between taken reads settled starts ⟨whole, told, isOpen, idle⟩

theorem follows_interimBefore {flush : Flush} {request : Request}
    (phase : connection.phase = .writing flush (.interimBefore request))
    (reads : Reads service.limits heard taken connection.intake connection.readClosed)
    (settled : AllSettled ledger.answers)
    (starts : ledger.starts ++ [.called request] = taken.map Start.of)
    (standing : Standing service heard ledger connection)
    (waits : connection.Waits service ledger.ahead)
    (moved : connection.Moves service peer deed after) :
    Follows service heard ledger deed after := by
  simp only [Waits, phase] at waits
  obtain ⟨whole, harmless⟩ := waits
  refine follows_interim phase rfl standing whole moved ?_ ?_ fun _ _ => rfl
  · intro octets sent whole
    exact .between taken reads settled starts ⟨.inr whole, harmless⟩
  · intro octets later whole
    exact .between taken reads settled starts ⟨whole, harmless⟩

/-- The page for a request that carries an error begins an answer once some of it is out. -/
theorem follows_refusal {flush : Flush} {status : Status}
    (phase : connection.phase = .writing flush (.errorPage status none))
    (reads : Reads service.limits heard taken connection.intake connection.readClosed)
    (settled : AllSettled ledger.answers)
    (starts : ledger.starts ++ [.refused status] = taken.map Start.of)
    (standing : Standing service heard ledger connection)
    (waits : connection.Waits service ledger.ahead)
    (moved : connection.Moves service peer deed after) :
    Follows service heard ledger deed after := by
  simp only [Waits, phase] at waits
  obtain ⟨ahead, nothing, page⟩ := waits
  rcases moves_writing phase moved with
    ⟨later, octets, ⟨rfl, -⟩ | ⟨rfl, rfl⟩, more, count, rfl⟩ | ⟨fault, rfl, rfl⟩
  · obtain ⟨account, entered, start, interim, out, due⟩ :=
      Ledger.enter_refusal service.serverName settled status octets
    have whole : account.octets ++ later.outbox.pending.flatten = account.due := by
      rw [out, due, more, page]
    have sound : account.Sound := ⟨by rw [interim]; exact ahead, ⟨_, whole⟩⟩
    have begun : Ledger.starts ⟨ledger.answers ++ [account], []⟩ = taken.map Start.of := by
      rw [← starts, Ledger.starts, List.map_append, List.map_singleton, start]
      rfl
    rw [Purpose.share]
    refine ⟨?_, ?_, fun request called => by cases called⟩
    · rw [Deed.heardIn_quiet (fun _ same => by cases same), List.append_nil, entered]
      split
      · exact .leaving rfl (settled.sound_last sound)
          (Standing.starts_of_reads reads (begun ▸ List.prefix_rfl))
      · exact .answering taken ledger.answers account reads rfl settled sound.interim begun
          ⟨⟨status, start⟩, whole⟩
    · rw [entered, Ledger.octets_push, interim, out, Ledger.octets, List.append_assoc]
      rfl
  · refine .other ?_
    split
    · exact standing.leaves rfl
    · exact .between taken reads settled starts ⟨ahead, by rw [count, nothing]; rfl,
        more.trans page⟩
  · exact .broke rfl (standing.leaves rfl)

/-- Calling the application begins an answer, and so does a page in place of one whose task
could not be made. -/
theorem follows_spawning {request : Request} (phase : connection.phase = .spawning request)
    (reads : Reads service.limits heard taken connection.intake connection.readClosed)
    (settled : AllSettled ledger.answers)
    (starts : ledger.starts ++ [.called request] = taken.map Start.of)
    (ahead : ledger.ahead = [] ∨ ledger.ahead = Status.interim)
    (harmless : request.failure = none) (moved : connection.Moves service peer deed after) :
    Follows service heard ledger deed after := by
  rcases moves_spawning phase moved with ⟨rfl, id, rfl⟩ | ⟨rfl, fault, rfl⟩
  · refine ⟨?_, ?_, fun other called => by cases called; exact harmless⟩
    · rw [Deed.heardIn_quiet (fun _ same => by cases same), List.append_nil]
      refine .answering taken ledger.answers (Account.opened (.called request) ledger.ahead)
        reads rfl settled ahead ?_ (.inl ⟨?_, rfl⟩)
      · rw [← starts, Ledger.enter, Ledger.start, Ledger.starts, List.map_append]
        rfl
      · exact ⟨⟨request, rfl, rfl⟩, by simp [Account.hopes, Account.opened], by
          rw [Progress.noteFlushed_zero]; rfl, rfl, rfl, rfl, rfl⟩
    · rw [Ledger.enter, Ledger.start, Ledger.octets_push, Ledger.octets, List.append_assoc]
      simp [Account.opened, Deed.octets]
  · refine ⟨?_, ?_, fun other called => by cases called⟩
    · rw [Deed.heardIn_quiet (fun _ same => by cases same), List.append_nil]
      refine .answering taken ledger.answers
        ((Account.opened (.called request) ledger.ahead).fail service.serverName)
        reads rfl settled ahead ?_ ⟨rfl, rfl⟩
      rw [← starts, Ledger.enter, Ledger.start, Ledger.starts, List.map_append]
      rfl
    · rw [Ledger.enter, Ledger.start, Ledger.octets_push, Ledger.octets, List.append_assoc]
      simp [Account.fail, Account.opened, Deed.octets]

/-! ## Inside an answer, and on the way out -/

theorem follows_answering {before : List Account} {account : Account}
    (reads : Reads service.limits heard taken connection.intake connection.readClosed)
    (settled : AllSettled before)
    (interim : account.interim = [] ∨ account.interim = Status.interim)
    (starts : Ledger.starts ⟨before ++ [account], []⟩ = taken.map Start.of)
    (answers : connection.phase.Answers service account)
    (moved : connection.Moves service peer deed after) :
    Follows service heard ⟨before ++ [account], []⟩ deed after := by
  obtain ⟨concerns, goesOn⟩ := goes answers moved
  have entered := Ledger.enter_last service.serverName before account concerns
  obtain ⟨start, ahead, out⟩ := account.enter_other service.serverName deed
  -- nothing is heard inside an answer, so the order of arrival stands still
  have quiet : ∀ received, deed ≠ .heard received := by
    rintro received rfl
    rcases concerns with none | ⟨_, _, _, none, -⟩
    · cases none
    · cases none
  have begun : Ledger.starts ⟨before ++ [account.enter service.serverName deed], []⟩ =
      taken.map Start.of := by
    rw [← starts, Ledger.starts, Ledger.starts, List.map_append, List.map_append,
      List.map_singleton, start, List.map_singleton]
  have interim' : (account.enter service.serverName deed).interim = [] ∨
      (account.enter service.serverName deed).interim = Status.interim := by
    rw [ahead]
    exact interim
  refine ⟨?_, ?_, fun request called => ?_⟩
  · rw [Deed.heardIn_quiet quiet, List.append_nil, entered]
    cases goesOn with
    | on intake closed answers =>
        exact .answering taken before _ (by rw [intake, closed]; exact reads) rfl settled interim'
          begun answers
    | leaves last within =>
        exact .leaving last (settled.sound_last ⟨interim', within⟩)
          (Standing.starts_of_reads reads (begun ▸ List.prefix_rfl))
    | next kept silent other intake closed looks =>
        rw [silent] at begun ⊢
        rw [looks]
        exact Standing.look (by rw [intake, closed]; exact reads)
          (settled.push ⟨interim, answers.within⟩ kept) begun (.inl rfl)
  · rw [entered, Ledger.octets_push, Ledger.octets_push, ahead, out]
    simp only [List.append_assoc]
  · rw [called] at concerns
    rcases concerns with none | ⟨_, _, _, none, -⟩
    · cases none
    · cases none

/-- On the way out a connection stays on it, and nothing is seen of it. -/
theorem moves_last (last : connection.phase.isLast = true)
    (moved : connection.Moves service peer deed after) :
    deed = .other ∧ after.phase.isLast = true := by
  rw [Moves] at moved
  cases phase : connection.phase with
  | uncorkingPage status facts size =>
      simp only [next, phase] at moved
      cases moved with
      | corked =>
          refine ⟨rfl, ?_⟩
          simp only [afterPage]
          split
          · split <;> rfl
          · split <;> rfl
  | tellingPage notice =>
      simp only [next, phase] at moved
      cases moved with
      | told => exact ⟨rfl, rfl⟩
  | leaving =>
      simp only [next, phase] at moved
      cases moved with
      | corked => exact ⟨rfl, rfl⟩
  | hurrying =>
      simp only [next, phase] at moved
      cases moved with
      | nodelay => exact ⟨rfl, rfl⟩
  | closed | broken _ | overflowed =>
      simp only [next, phase] at moved
      cases moved
  | _ =>
      rw [phase] at last
      cases last

/-! ## Steps and runs -/

/-- **Every step keeps a connection standing with its ledger.** -/
theorem follows (standing : Standing service heard ledger connection)
    (moved : connection.Moves service peer deed after) :
    Follows service heard ledger deed after := by
  cases standing with
  | leaving last sound starts =>
      obtain ⟨rfl, last⟩ := moves_last last moved
      exact .other (.leaving last sound starts)
  | answering taken before account reads last settled interim starts answers =>
      subst last
      exact follows_answering reads settled interim starts answers moved
  | between taken reads settled starts waits =>
      have here := waits
      have stands : Standing service heard ledger connection :=
        .between taken reads settled starts waits
      rw [Waits] at here
      cases phase : connection.phase with
      | receiving idle =>
          simp only [phase] at here
          simp only [reading, phase] at reads
          simp only [phase, Phase.announced, List.append_nil] at starts
          obtain ⟨ahead, isOpen, between⟩ := here
          simp only [Ahead, reading, phase] at ahead
          exact follows_receiving phase reads settled starts ahead isOpen between moved
      | tellingReadFault fault idle =>
          simp only [phase] at here
          simp only [reading, phase] at reads
          simp only [phase, Phase.announced, List.append_nil] at starts
          obtain ⟨ahead, between⟩ := here
          simp only [Ahead, reading, phase] at ahead
          exact follows_tellingReadFault phase reads settled starts ahead between moved
      | spawning request =>
          simp only [phase] at here
          simp only [reading, phase] at reads
          rw [phase] at starts
          exact follows_spawning phase reads settled starts here.1 here.2 moved
      | writing flush purpose =>
          simp only [reading, phase] at reads
          rw [phase] at starts
          cases purpose with
          | interimWhileReading =>
              exact follows_interimWhileReading phase reads settled starts stands waits moved
          | interimBefore request =>
              exact follows_interimBefore phase reads settled starts stands waits moved
          | errorPage status facts =>
              cases facts with
              | none => exact follows_refusal phase reads settled starts stands waits moved
              | some facts => simp only [phase] at here
          | _ => simp only [phase] at here
      | _ => simp only [phase] at here

namespace Run

variable {deeds : List Deed}

/-- **Every run leaves the connection standing with the ledger of its deeds.** -/
theorem stands (run : Run service peer deeds connection) :
    Standing service (Deed.heardIn deeds) (Ledger.of service.serverName deeds) connection ∧
      (Ledger.of service.serverName deeds).octets = Deed.written deeds ∧
      ∀ request, .called request ∈ deeds → request.failure = none := by
  -- the ledger is entered deed by deed, so each deed needs only what stands before it
  induction run with
  | opened =>
      refine ⟨?_, rfl, fun request member => by cases member⟩
      exact .between [] (Reads.opened _) (fun account member => by cases member) rfl
        ⟨.inl rfl, rfl, rfl⟩
  | @step deeds connection after deed before moved ih =>
      obtain ⟨standing, octets, called⟩ := ih
      have follows := follows standing moved
      refine ⟨?_, ?_, fun request member => ?_⟩
      · rw [Ledger.of_append, Deed.heardIn, List.filterMap_append]
        exact follows.standing
      · rw [Ledger.of_append, follows.octets, octets]
        simp [Deed.written]
      · rcases List.mem_append.1 member with earlier | last
        · exact called request earlier
        · exact follows.called request (List.mem_singleton.1 last).symm

/-- **Answers leave in order of arrival.**  In every run the requests that are answered,
by a call of the application, by the page in place of one whose task could not be made, or
by the page for their error, are the first ones that arrived, each answered once.  What was
written is what went out for each answer in that order, each behind its interim answer if
there was one, and of an interim answer to the next request.  What goes out for an answer is
the front of what is due for it.  Whatever has something behind it is out as a whole and was
kept, which a refusal and an answer whose task failed never are.  The application is never
called for a request that carries an error. -/
theorem answers_in_order (run : Run service peer deeds connection) :
    ((Ledger.of service.serverName deeds).answers.map (·.start) <+:
        (Intake.hearAll service.limits (Deed.heardIn deeds)).queue.items.map Start.of) ∧
      Deed.written deeds =
        ((Ledger.of service.serverName deeds).answers.flatMap fun account =>
            account.interim ++ account.octets) ++
          (Ledger.of service.serverName deeds).ahead ∧
      (∀ account ∈ (Ledger.of service.serverName deeds).answers,
        (account.interim = [] ∨ account.interim = Status.interim) ∧
          account.octets <+: account.due) ∧
      (Ledger.of service.serverName deeds).ahead <+: Status.interim ∧
      (∀ before account later,
        (Ledger.of service.serverName deeds).answers = before ++ account :: later →
        later ≠ [] ∨ (Ledger.of service.serverName deeds).ahead ≠ [] →
        account.octets = account.due ∧ account.kept = true) ∧
      ∀ request, .called request ∈ deeds → request.failure = none := by
  obtain ⟨standing, octets, called⟩ := run.stands
  obtain ⟨sound, starts⟩ := standing.inOrder
  refine ⟨starts, octets.symm, fun account member => ?_, sound.ahead, ?_, called⟩
  · exact ⟨(sound.accounts account member).interim, (sound.accounts account member).within⟩
  · intro before account later same behind
    have settled := sound.settled before account later same behind
    exact ⟨settled.whole, settled.kept⟩

/-- Two requests are read at once and answered one behind the other, the second of them
refused for a method that is not known. -/
theorem pair_answered_in_order :
    let session := greeted 12 "GET /a HTTP/1.1\r\n\r\nBREW /b HTTP/1.1\r\n\r\n"
    let ledger := Ledger.of greeting.serverName session.deeds
    ledger.answers.map (·.kept) = [true, false] ∧
      (ledger.answers.map (·.start) <+: (Intake.hearAll greeting.limits
        (Deed.heardIn session.deeds)).queue.items.map Start.of) ∧
      Deed.written session.deeds =
        (ledger.answers.flatMap fun account => account.interim ++ account.octets) ++
          ledger.ahead := by
  intro session ledger
  obtain ⟨starts, written, -⟩ := answers_in_order (greeted_run 12
    "GET /a HTTP/1.1\r\n\r\nBREW /b HTTP/1.1\r\n\r\n")
  exact ⟨by decide +kernel, starts, written⟩

end Run

end Connection

end EmbeddedHttp
