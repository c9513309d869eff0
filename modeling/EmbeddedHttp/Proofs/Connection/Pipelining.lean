/-
# EmbeddedHttp.Proofs.Connection.Pipelining -- what follows an answer that is kept

Behind an answer after which the connection is kept, a request that is ready to be
answered is taken up at once, in order of arrival, unless the parser has seen an upgrade:
then the connection leaves, and the requests that are queued stay unanswered
(`Connection.Run.next_behind_kept`).  The parser runs ahead of the answers, so the
upgrade may belong to a request behind the one that was just answered.
-/
import EmbeddedHttp.Proofs.Connection.Order
import EmbeddedHttp.Proofs.Connection.Obliging

namespace EmbeddedHttp

set_option autoImplicit false

variable {Call : Type} {Answer : Call → Type} {service : Service Call Answer} {peer : Peer}
  {connection after : Connection Call Answer} {deed : Deed} {deeds : List Deed}

namespace Connection

/-- Does the next step come behind an answer of a task? -/
def endsAnswer (service : Service Call Answer) (connection : Connection Call Answer) : Bool :=
  match connection.phase with
  | .uncorking _ => !service.accessLog
  | .tellingAccess _ => true
  | _ => false

/-- The request was taken from the queue to be answered: the page for its error is being
written, or the application is about to be called, perhaps behind an interim answer. -/
def TakesUp (service : Service Call Answer) (request : Request) (rest : List Request)
    (connection : Connection Call Answer) : Prop :=
  connection.intake.queue.items = rest ∧
    match request.failure with
    | some status => ∃ flush, connection.phase = .writing flush (.errorPage status none) ∧
        flush.outbox.pending.flatten = status.errorPage service.serverName
    | none => connection.phase = .spawning request ∨
        ∃ flush, connection.phase = .writing flush (.interimBefore request.settled) ∧
          flush.outbox.pending.flatten = Status.interim

theorem look_takesUp {request : Request} {rest : List Request}
    (items : connection.intake.queue.items = request :: rest)
    (ready : request.isReady = true) :
    (connection.look service).TakesUp service request rest := by
  have looks : connection.look service = connection.dispatch service request ⟨rest⟩ := by
    simp only [look, items, ready, if_true]
  rw [looks]
  cases failure : request.failure with
  | some status =>
      rw [dispatch_refused failure, TakesUp, failure]
      exact ⟨rfl, _, rfl, Outbox.push_pending (status.errorPage service.serverName)⟩
  | none =>
      by_cases waits : request.expectContinue = true
      · rw [dispatch_waits failure waits, TakesUp, failure]
        exact ⟨rfl, .inr ⟨_, rfl, Outbox.push_pending Status.interim⟩⟩
      · rw [dispatch_calls failure (Bool.eq_false_iff.2 waits), TakesUp, failure]
        exact ⟨rfl, .inl rfl⟩

theorem TakesUp.not_leaving {request : Request} {rest : List Request}
    (takesUp : connection.TakesUp service request rest) : connection.phase ≠ .leaving := by
  intro leaving
  obtain ⟨-, phase⟩ := takesUp
  rw [leaving] at phase
  split at phase
  · obtain ⟨_, other, -⟩ := phase
    cases other
  · rcases phase with other | ⟨_, other, -⟩
    · cases other
    · cases other

/-- Behind an answer the connection goes on as the exchange says. -/
theorem moves_endsAnswer (ends : connection.endsAnswer service = true)
    (moved : connection.Moves service peer deed after) :
    ∃ exchange served, (connection.phase = .uncorking exchange ∨
        connection.phase = .tellingAccess exchange) ∧
      after = { connection with served := served }.afterAnswer service exchange := by
  cases phase : connection.phase with
  | uncorking exchange =>
      have quiet : ¬ service.accessLog = true := by simpa [endsAnswer, phase] using ends
      obtain ⟨-, rfl⟩ := moves_uncorking phase moved
      rw [if_neg quiet]
      exact ⟨exchange, connection.served + 1, .inl rfl, rfl⟩
  | tellingAccess exchange =>
      obtain ⟨-, rfl⟩ := moves_tellingAccess phase moved
      exact ⟨exchange, connection.served, .inr rfl, rfl⟩
  | _ => simp [endsAnswer, phase] at ends

/-- If any request of a queue can be answered, the first one can, since only the last may
still be on its way. -/
theorem first_ready {queue : RequestQueue} (front : Intake.FrontReady queue)
    (waiting : ∃ request ∈ queue.items, request.isReady = true) :
    ∃ request rest, queue.items = request :: rest ∧ request.isReady = true := by
  obtain ⟨some_request, member, ready⟩ := waiting
  cases items : queue.items with
  | nil =>
      rw [items] at member
      cases member
  | cons request rest =>
      refine ⟨request, rest, rfl, ?_⟩
      cases rest with
      | nil =>
          rw [items, List.mem_singleton] at member
          rw [← member]
          exact ready
      | cons second others => exact front request (by rw [items]; exact List.mem_cons_self)

namespace Run

/-- Where an answer ends, the exchange agrees with the last account, and all requests in the
queue but the last can be answered. -/
theorem finished (run : Run service peer deeds connection) {account : Account}
    (last : (Ledger.of service.serverName deeds).answers.getLast? = some account)
    {exchange : Exchange Call Answer}
    (phase : connection.phase = .uncorking exchange ∨
      connection.phase = .tellingAccess exchange) :
    Finished account exchange ∧ Intake.FrontReady connection.intake.queue := by
  cases run.stands.1 with
  | leaving isLast sound starts =>
      rcases phase with phase | phase
      · rw [phase] at isLast
        cases isLast
      · rw [phase] at isLast
        cases isLast
  | between taken reads settled starts waits =>
      rcases phase with phase | phase
      · simp only [Waits, phase] at waits
      · simp only [Waits, phase] at waits
  | answering taken before account' reads same settled interim starts answers =>
      rw [same, List.getLast?_concat, Option.some_inj] at last
      subst last
      refine ⟨?_, reads.front⟩
      rcases phase with phase | phase
      · rw [phase] at answers
        exact answers
      · rw [phase] at answers
        exact answers

/-- **What follows an answer that is kept.**  When the task of a request is over, no write
failed, no wait timed out, the body has its full length, and request and head both allow the
connection to be kept, while some request in the queue can be answered: the first request of
the queue can, and it is taken up if and only if the parser has not seen an upgrade.  When
the parser has, the connection leaves and the queue stays as it is. -/
theorem next_behind_kept (run : Run service peer deeds connection) {account : Account}
    (ends : connection.endsAnswer service = true)
    (last : (Ledger.of service.serverName deeds).answers.getLast? = some account)
    (kept : account.kept = true)
    (waiting : ∃ request ∈ connection.intake.queue.items, request.isReady = true)
    (moved : connection.Moves service peer deed after) :
    ∃ request rest, connection.intake.queue.items = request :: rest ∧
      request.isReady = true ∧
      (after.TakesUp service request rest ↔ connection.intake.parser.isUpgraded = false) ∧
      (connection.intake.parser.isUpgraded = true →
        after.phase = .leaving ∧ after.intake.queue = connection.intake.queue) := by
  obtain ⟨exchange, served, phase, rfl⟩ := moves_endsAnswer ends moved
  obtain ⟨finished, front⟩ := run.finished last phase
  obtain ⟨request, rest, items, ready⟩ := first_ready front waiting
  have stays := finished.kept.symm.trans kept
  simp only [Bool.and_eq_true, Bool.not_eq_true'] at stays
  obtain ⟨whole, keepAlive⟩ := stays
  refine ⟨request, rest, items, ready, ?_⟩
  -- with the exchange kept, only the mode of the parser is still asked for
  have decides : ({ connection with served := served }.afterAnswer service exchange) =
      if connection.intake.parser.isUpgraded then
        { connection with served := served }.leave
      else { connection with served := served }.look service := by
    simp only [afterAnswer, whole, keepAlive, Bool.false_or, Bool.not_true]
  rw [decides]
  cases upgraded : connection.intake.parser.isUpgraded with
  | true =>
      rw [if_pos rfl]
      exact ⟨⟨fun takesUp => absurd rfl takesUp.not_leaving, fun no => by cases no⟩,
        fun _ => ⟨rfl, rfl⟩⟩
  | false =>
      rw [if_neg (by decide)]
      exact ⟨⟨fun _ => rfl, fun _ => look_takesUp items ready⟩, fun no => by cases no⟩

/-- A request to upgrade is read together with the one before it: behind the answer to the
first, which is kept, the connection leaves with the second one ready in the queue. -/
theorem upgrade_left_unanswered :
    let before := greeted 7
      "GET /a HTTP/1.1\r\n\r\nGET /b HTTP/1.1\r\nConnection: Upgrade\r\nUpgrade: x\r\n\r\n"
    (∀ account ∈ (Ledger.of greeting.serverName before.deeds).answers, account.kept = true) ∧
      (∃ request ∈ before.connection.intake.queue.items, request.isReady = true) ∧
      ∃ deed after, before.connection.Moves greeting Peer.unix deed after ∧
        after.phase = .leaving ∧ after.intake.queue = before.connection.intake.queue := by
  intro before
  have kept : ∀ account ∈ (Ledger.of greeting.serverName before.deeds).answers,
      account.kept = true := by
    decide +kernel
  have waiting : ∃ request ∈ before.connection.intake.queue.items, request.isReady = true := by
    decide +kernel
  have answered : (Ledger.of greeting.serverName before.deeds).answers ≠ [] := by decide +kernel
  obtain ⟨after, obliged⟩ := Option.isSome_iff_exists.1
    (show (oblige greeting Peer.unix before).isSome = true by decide +kernel)
  obtain ⟨deed, -, moved⟩ := oblige_moves obliged
  obtain ⟨_, _, -, -, -, leaves⟩ := next_behind_kept (greeted_run 7 _) (by decide +kernel)
    (List.getLast?_eq_some_getLast answered) (kept _ (List.getLast_mem answered)) waiting moved
  exact ⟨kept, waiting, deed, after.connection, moved, leaves (by decide +kernel)⟩

end Run

end Connection

end EmbeddedHttp
