/-
# EmbeddedHttp.Proofs.Connection.Interim -- when a client is told to go on

A client may ask to be told to go on before it sends a body.  It is told at most once, in its
turn, and only as long as nothing of the body came; and it is told before the application is
called, unless some of the body had come whenever the connection could have told it
(`Connection.Run.told_in_turn`).

What was seen of a connection says how many answers have begun, what went out of an interim
answer to the next request, and how far each message was read (`View`).  `Connection.Watches`
says, phase by phase, how the connection stands with that; every step keeps it.
-/
import EmbeddedHttp.Proofs.Connection.Lapsing
import EmbeddedHttp.Proofs.Request.Tracking

namespace EmbeddedHttp

set_option autoImplicit false

open Intake (Reads Tracks hearAll)

variable {Call : Type} {Answer : Call → Type} {service : Service Call Answer} {peer : Peer}
  {connection after : Connection Call Answer} {deed : Deed} {deeds first rest : List Deed}

/-! ## What was seen -/

/-- The application is called, for a request of which `p` holds. -/
def Deed.calls (p : Request → Bool) : Deed → Bool
  | .called request => p request
  | _ => false

/-- What was seen of a connection, as far as it concerns the next request. -/
structure View where
  /-- How many answers have begun. -/
  answered : Nat
  /-- What went out of an interim answer to the next request. -/
  ahead : Bytes
  /-- How far the messages were read. -/
  extents : List Extent
  /-- At some moment since the last answer began the head of the next request was read, and
  nothing of its body. -/
  due : Prop

namespace View

/-- How far the message of the next request was read. -/
def next? (view : View) : Option Extent := view.extents[view.answered]?

/-- The deeds as far as they concern the next request. -/
def of (serverName : String) (deeds : List Deed) : View where
  answered := (Ledger.of serverName deeds).answers.length
  ahead := (Ledger.of serverName deeds).ahead
  extents := Received.extents (Deed.heardIn deeds)
  due := ∃ first rest, deeds = first ++ rest ∧
    (Ledger.of serverName first).answers.length = (Ledger.of serverName deeds).answers.length ∧
    (Received.extents (Deed.heardIn first))[(Ledger.of serverName deeds).answers.length]? =
      some .bare

/-- Whatever was due is so now, or was so before and no answer has begun since. -/
theorem due_concat {serverName : String} (due : (of serverName (deeds ++ [deed])).due) :
    (of serverName (deeds ++ [deed])).next? = some .bare ∨
      (of serverName (deeds ++ [deed])).answered = (of serverName deeds).answered ∧
        (of serverName deeds).due := by
  obtain ⟨first, rest, told, same, bare⟩ := due
  rcases List.eq_nil_or_concat rest with rfl | ⟨between, last, rfl⟩
  · rw [List.append_nil] at told
    subst told
    exact .inl bare
  · rw [List.concat_eq_append, ← List.append_assoc] at told
    obtain ⟨rfl, -⟩ := List.append_inj' told rfl
    -- no answer has begun since that moment, so none began with the last deed
    have earlier := Ledger.of_longer serverName first between
    have later := Ledger.of_longer serverName (first ++ between) [deed]
    have still : (Ledger.of serverName (first ++ between ++ [deed])).answers.length =
        (Ledger.of serverName (first ++ between)).answers.length := by omega
    refine .inr ⟨still, first, between, rfl, by omega, ?_⟩
    rw [← still]
    exact bare

/-- The head of a message that was due was read. -/
theorem due_read {serverName : String} (due : (of serverName deeds).due) :
    ∃ extent, (of serverName deeds).next? = some extent ∧ extent.head = true := by
  obtain ⟨first, rest, rfl, same, bare⟩ := due
  obtain ⟨later, found, within⟩ :=
    Received.extents_within (Deed.heardIn first) (Deed.heardIn rest) bare
  refine ⟨later, ?_, within.head rfl⟩
  rw [next?, of, Deed.heardIn, List.filterMap_append]
  exact found

/-- One view follows another without an answer having begun. -/
structure Follows (view later : View) : Prop where
  answered : later.answered = view.answered
  ahead : later.ahead = view.ahead
  due : later.due → later.next? = some .bare ∨ view.due

/-- What is not heard leaves open how far the messages were read. -/
theorem extents_quiet (serverName : String) (deeds : List Deed) (quiet : Deed.heardIn [deed] = []) :
    (of serverName (deeds ++ [deed])).extents = (of serverName deeds).extents := by
  show Received.extents (Deed.heardIn (deeds ++ [deed])) = _
  rw [show Deed.heardIn (deeds ++ [deed]) = Deed.heardIn deeds ++ Deed.heardIn [deed] from
    List.filterMap_append, quiet, List.append_nil]
  rfl

theorem follows_of {serverName : String}
    (answered : ((Ledger.of serverName deeds).enter serverName deed).answers.length =
      (Ledger.of serverName deeds).answers.length)
    (ahead : ((Ledger.of serverName deeds).enter serverName deed).ahead =
      (Ledger.of serverName deeds).ahead) :
    (of serverName deeds).Follows (of serverName (deeds ++ [deed])) where
  answered := by
    show (Ledger.of serverName (deeds ++ [deed])).answers.length = _
    rw [Ledger.of_append]
    exact answered
  ahead := by
    show (Ledger.of serverName (deeds ++ [deed])).ahead = _
    rw [Ledger.of_append]
    exact ahead
  due wasDue := (due_concat wasDue).imp_right And.right

theorem follows_silent {serverName : String} (silent : Ledger.isSilent deed = true) :
    (of serverName deeds).Follows (of serverName (deeds ++ [deed])) :=
  follows_of (by rw [Ledger.enter_silent serverName _ silent])
    (by rw [Ledger.enter_silent serverName _ silent])

end View

namespace Connection

variable {view later : View} {heard : List Received} {taken : List Request}

/-- How a connection stands with what was seen of it.  While it reads, the first request is the
next one; if it asked to be told to go on at a moment when it was due, it was told.  Then it is
taken up, and is told first if it still waits; and once it is answered, nothing more was read
since the answer began. -/
def Watches (view : View) (connection : Connection Call Answer) : Prop :=
  match connection.phase with
  | .receiving _ | .tellingReadFault _ _ =>
      Tracks (view.ahead = Status.interim) view.answered view.extents connection.intake
          connection.readClosed ∧
        ∀ request rest, connection.intake.queue.items = request :: rest → request.Asks →
          view.due → view.ahead = Status.interim
  | .writing _ .interimWhileReading =>
      Tracks True view.answered view.extents connection.intake connection.readClosed ∧
        view.next? = some .bare ∧
        ∃ request rest, connection.intake.queue.items = request :: rest ∧ request.Asks
  | .writing _ (.interimBefore request) =>
      Tracks False (view.answered + 1) view.extents connection.intake connection.readClosed ∧
        view.next? = some .bare ∧ request.Asks
  | .spawning request =>
      Tracks False (view.answered + 1) view.extents connection.intake connection.readClosed ∧
        (view.due → request.Asks → view.ahead = Status.interim)
  | .writing _ (.errorPage _ _) => True
  | phase => phase.isLast = true ∨
      Tracks False view.answered view.extents connection.intake connection.readClosed ∧
        (view.due → view.next? = some .bare)

theorem watches_last (last : connection.phase.isLast = true) : connection.Watches view := by
  rw [Watches]
  cases phase : connection.phase with
  | writing flush purpose | receiving _ | tellingReadFault _ _ | spawning _ =>
      rw [phase] at last
      cases last
  | _ =>
      rw [phase] at last
      exact .inl last

/-! ## Looking at the queue -/

/-- **Whoever looks at the queue tells the first request to go on, if it waits for that.** -/
theorem watches_look
    (tracks : Tracks (view.ahead = Status.interim) view.answered view.extents connection.intake
      connection.readClosed)
    (inStep : connection.readClosed = false →
      connection.intake.InStep ∧ connection.intake.parser ≠ .upgraded)
    (due : ∀ request rest, connection.intake.queue.items = request :: rest →
      request.failure = none → request.Asks → view.due →
      view.ahead = Status.interim ∨ view.next? = some .bare) :
    (connection.look service).Watches view := by
  cases items : connection.intake.queue.items with
  | nil =>
      simp only [look, items]
      split
      · exact watches_last rfl
      · refine ⟨tracks, fun request rest same => ?_⟩
        rw [show connection.awaitMore.intake.queue.items = [] from items] at same
        cases same
  | cons request rest =>
      -- who does not wait although its head asks for it was told
      have plain : request.failure = none → request.expectContinue = false → request.Asks →
          view.due → view.ahead = Status.interim := by
        intro harmless told asks wasDue
        refine (due request rest items harmless asks wasDue).elim id fun bare => ?_
        obtain ⟨extent, there, pairs⟩ := tracks.first items harmless
        rw [View.next?, there, Option.some_inj] at bare
        refine (pairs.asked bare asks).resolve_left ?_
        rw [told]
        decide
      have waiting : request.failure = none → request.expectContinue = true →
          view.next? = some .bare ∧ request.Asks := by
        intro harmless waits
        obtain ⟨extent, there, pairs⟩ := tracks.first items harmless
        obtain ⟨bare, asks⟩ := pairs.waits waits
        exact ⟨by rw [View.next?, there, bare], asks⟩
      simp only [look, items]
      split
      · rename_i ready
        have took := tracks.take items ready inStep
        cases harmless : request.failure with
        | some status =>
            rw [dispatch_refused harmless]
            trivial
        | none =>
            by_cases waits : request.expectContinue = true
            · rw [dispatch_waits harmless waits]
              exact ⟨took, waiting harmless waits⟩
            · have told := Bool.eq_false_iff.2 waits
              rw [dispatch_calls harmless told]
              exact ⟨took, fun wasDue asks => plain harmless told asks wasDue⟩
      · split
        · exact watches_last rfl
        · rename_i goesOn
          have isOpen := Bool.eq_false_iff.2 goesOn
          have harmless := (isOpen ▸ tracks).harmless items
          split
          · rename_i waits
            obtain ⟨bare, asks⟩ := waiting harmless waits
            exact ⟨tracks.settleFirst items, bare, request.settled, rest, rfl, asks⟩
          · rename_i told
            refine ⟨tracks, fun other others same asks wasDue => ?_⟩
            rw [show connection.awaitMore.intake.queue.items = request :: rest from items] at same
            cases same
            exact plain harmless (Bool.eq_false_iff.2 told) asks wasDue

/-! ## Reading -/

variable (tracks : Tracks (view.ahead = Status.interim) view.answered view.extents
    connection.intake false)
  (waits : ∀ request rest, connection.intake.queue.items = request :: rest → request.Asks →
    view.due → view.ahead = Status.interim)

include tracks waits

/-- Nothing more is read, and the message at hand is refused. -/
theorem watches_closeReading (status : Status) :
    ((connection.closeReading status).look service).Watches view := by
  refine watches_look (tracks.recordFailure status) (fun isOpen => by cases isOpen)
    fun request rest items harmless asks wasDue => ?_
  left
  cases before : connection.intake.queue.items with
  | nil =>
      -- alone the error is a request of its own
      have alone : (connection.intake.queue.recordFailure status).items =
          [Request.new.fail status] := by
        simp [RequestQueue.recordFailure, RequestQueue.inProgress?, before, RequestQueue.push]
      rw [show (connection.closeReading status).intake.queue.items = _ from alone] at items
      cases items
      cases harmless
  | cons first others =>
      obtain ⟨later, found, same⟩ := RequestQueue.recordFailure_sameHead
        (show connection.intake.queue.items[0]? = some first by rw [before]; rfl) status
      rw [show (connection.intake.queue.recordFailure status).items = _ from items] at found
      cases found
      exact waits first others before (same.asks.1 asks) wasDue

theorem watches_cutShort (status : Status) (idle : Bool) :
    (if idle then connection.leave
      else (connection.closeReading status).look service).Watches view := by
  split
  · exact watches_last rfl
  · exact watches_closeReading tracks waits status

/-- Octets came. -/
theorem watches_absorb {b : UInt8} {rest : Bytes} (isOpen : connection.readClosed = false)
    (reads : Reads service.limits heard taken connection.intake false)
    (follows : view.Follows later)
    (extents : later.extents =
      Extent.tellAll view.extents (connection.intake.parser.run (b :: rest)).1)
    (read : view.due → ∃ extent, view.next? = some extent ∧ extent.head = true) :
    (connection.absorb service (b :: rest)).Watches later := by
  have looked : ∀ stopped : Bool,
      (∀ fault, (connection.intake.feed service.limits (b :: rest)).result = .error fault →
        stopped = true) →
      ((connection.intake.feed service.limits (b :: rest)).intake.parser.isUpgraded = true →
        stopped = true) →
      ({ connection with
        intake := (connection.intake.feed service.limits (b :: rest)).intake
        readClosed := stopped }.look service).Watches later := by
    intro stopped fails upgrades
    refine watches_look ?_ (fun goesOn => ?_) fun request others items _ asks wasDue => ?_
    · rw [follows.ahead, follows.answered, extents]
      exact tracks.feed service.limits (b :: rest) stopped fails
    · obtain ⟨inStep, plain, -⟩ := (reads.feed b rest stopped upgrades).reading goesOn
      exact ⟨inStep, plain⟩
    · -- a head that was read when it was due asked then what it asks now
      rcases follows.due wasDue with bare | before
      · exact .inr bare
      left
      obtain ⟨extent, there, headRead⟩ := read before
      cases queued : connection.intake.queue.items with
      | nil =>
          have none := tracks.empty queued
          rw [View.next?, none] at there
          cases there
      | cons first behind =>
          obtain ⟨next, more, same, sameHead⟩ :=
            tracks.feed_sameHead service.limits queued there headRead (b :: rest)
          obtain ⟨rfl, -⟩ := List.cons.inj (items.symm.trans same)
          rw [follows.ahead]
          exact waits first behind queued (sameHead.asks.1 asks) before
  rw [absorb, isOpen]
  split
  · exact watches_last rfl
  · refine looked _ (fun fault failed => ?_) fun upgraded => by rw [upgraded, Bool.or_true]
    rw [failed]
    rfl

omit tracks waits

/-! ## Answering -/

/-- The phases of an answer. -/
theorem watches_answers {account : Account}
    (answers : connection.phase.Answers service account)
    (tracks : Tracks False view.answered view.extents connection.intake connection.readClosed)
    (due : view.due → view.next? = some .bare) : connection.Watches view := by
  rw [Watches]
  cases phase : connection.phase with
  | writing flush purpose =>
      rw [phase] at answers
      cases purpose with
      | piece _ _ | fileHead _ _ | lastChunk _ => exact .inr ⟨tracks, due⟩
      | errorPage _ _ => trivial
      | _ => cases answers
  | switching _ _ | waiting _ _ | corking _ _ | dating _ _ | sendingFile _ _ | uncorking _
  | tellingAccess _ | tellingFailure _ _ | tellingUnstarted _ _ => exact .inr ⟨tracks, due⟩
  | _ =>
      rw [phase] at answers
      cases answers

theorem watches_next {other : Connection Call Answer}
    (tracks : Tracks False view.answered view.extents other.intake other.readClosed)
    (reads : Reads service.limits heard taken other.intake other.readClosed)
    (due : view.due → view.next? = some .bare) : (other.look service).Watches view := by
  refine watches_look (tracks.mono False.elim) (fun isOpen => ?_)
    fun _ _ _ _ _ wasDue => .inr (due wasDue)
  obtain ⟨inStep, plain, -⟩ := reads.reading isOpen
  exact ⟨inStep, plain⟩

/-! ## Runs -/

namespace Run

/-- While the connection reads, whoever is due now was told to go on or does not ask for
that. -/
theorem waits_later (run : Run service peer deeds connection) (reads : connection.isReading = true)
    (tracks : Tracks (view.ahead = Status.interim) view.answered view.extents connection.intake
      false)
    (waits : ∀ request rest, connection.intake.queue.items = request :: rest → request.Asks →
      view.due → view.ahead = Status.interim)
    (follows : view.Follows later) (extents : later.extents = view.extents) :
    Tracks (later.ahead = Status.interim) later.answered later.extents connection.intake false ∧
      ∀ request rest, connection.intake.queue.items = request :: rest → request.Asks →
        later.due → later.ahead = Status.interim := by
  rw [follows.ahead, follows.answered, extents]
  refine ⟨tracks, fun request rest items asks wasDue => ?_⟩
  rcases follows.due wasDue with bare | before
  · obtain ⟨extent, there, pairs⟩ := tracks.first items (tracks.harmless items)
    rw [View.next?, follows.answered, extents, there, Option.some_inj] at bare
    refine (pairs.asked bare asks).resolve_left ?_
    rw [(run.awaits reads request rest items).2]
    decide
  · exact waits request rest items asks before

/-- A connection that reads. -/
theorem watches_receiving (run : Run service peer deeds connection) {idle : Bool}
    (phase : connection.phase = .receiving idle)
    (watches : connection.Watches (.of service.serverName deeds))
    (moved : connection.Moves service peer deed after) :
    after.Watches (.of service.serverName (deeds ++ [deed])) := by
  obtain ⟨received, rfl, rfl⟩ := moves_receiving phase moved
  obtain ⟨isOpen, between⟩ := run.receives phase
  have reading : connection.isReading = true := by rw [isReading, phase]
  have follows : (View.of service.serverName deeds).Follows
      (View.of service.serverName (deeds ++ [.heard received])) := View.follows_silent rfl
  simp only [Watches, phase] at watches
  obtain ⟨tracks, waits⟩ := watches
  rw [isOpen] at tracks
  have heard : Deed.heardIn (deeds ++ [.heard received]) = Deed.heardIn deeds ++ [received] :=
    List.filterMap_append
  -- without octets, no message is read any further
  have quiet : received.octets = [] →
      (View.of service.serverName (deeds ++ [.heard received])).extents =
        (View.of service.serverName deeds).extents := by
    intro none
    show Received.extents (Deed.heardIn (deeds ++ [.heard received])) = _
    rw [heard, Received.extents_quiet none]
    rfl
  have cut : received.octets = [] → ∀ status,
      (if idle then connection.leave
        else (connection.closeReading status).look service).Watches
          (.of service.serverName (deeds ++ [.heard received])) := by
    intro none status
    obtain ⟨tracks, waits⟩ := run.waits_later reading tracks waits follows (quiet none)
    exact watches_cutShort tracks waits status idle
  cases received with
  | timedOut => exact cut rfl _
  | failed fault =>
      simp only [afterReceive]
      split
      · exact cut rfl _
      · obtain ⟨tracks, waits⟩ := run.waits_later reading tracks waits follows (quiet rfl)
        refine ⟨?_, waits⟩
        rw [show (connection.goto (.tellingReadFault fault idle)).readClosed = false from isOpen]
        exact tracks
  | data bytes =>
      cases bytes with
      | nil =>
          obtain ⟨tracks, waits⟩ := run.waits_later reading tracks waits follows (quiet rfl)
          simp only [afterReceive]
          split
          · refine watches_look tracks.close (fun isOpen => by cases isOpen)
              fun request rest items _ asks wasDue => ?_
            exact .inl (waits request rest items asks wasDue)
          · exact watches_closeReading tracks waits _
      | cons b rest =>
          cases run.holds with
          | telling _ _ _ _ other =>
              rw [phase] at other
              cases other
          | recorded taken _ reads synced =>
              rw [isOpen] at reads synced
              obtain ⟨-, plain, sound, -⟩ := synced.reading rfl
              obtain ⟨events, read⟩ := Intake.hearAll_octets service.limits _ sound
              rw [reads.parser] at read
              refine watches_absorb tracks waits isOpen reads follows ?_ View.due_read
              show Received.extents (Deed.heardIn (deeds ++ [.heard (.data (b :: rest))])) = _
              rw [heard, Received.extents_data read]
              rfl

/-- A turn at an outbox with an interim answer: the front of what is left goes out, or nothing,
and neither the requests nor what was read change. -/
theorem watches_interim (run : Run service peer deeds connection) {flush : Flush}
    {purpose : Purpose Call Answer} (phase : connection.phase = .writing flush purpose)
    (interim : purpose.share = .interim)
    (moved : connection.Moves service peer deed after)
    (drained : ∀ later : View, later.answered = (View.of service.serverName deeds).answered →
      later.extents = (View.of service.serverName deeds).extents →
      later.ahead = Status.interim → ∀ sent,
      (connection.afterWriting service sent purpose none).Watches later)
    (partly : ∀ later : View, later.answered = (View.of service.serverName deeds).answered →
      later.extents = (View.of service.serverName deeds).extents →
      ∀ flush, (connection.goto (.writing flush purpose)).Watches later)
    (failed : ∀ sent fault,
      (connection.afterWriting service sent purpose (some fault)).phase.isLast = true) :
    after.Watches (.of service.serverName (deeds ++ [deed])) := by
  have whole : (Ledger.of service.serverName deeds).ahead ++ flush.outbox.pending.flatten =
      Status.interim := by
    cases run.stands.1 with
    | between taken reads settled starts waits =>
        cases purpose with
        | interimWhileReading | interimBefore _ =>
            simp only [Waits, phase] at waits
            exact waits.1
        | errorPage status facts => cases facts <;> cases interim
        | _ => cases interim
    | answering taken before account reads last settled begun starts answers =>
        rw [phase] at answers
        cases purpose with
        | interimWhileReading | interimBefore _ => cases answers
        | errorPage status facts => cases facts <;> cases interim
        | _ => cases interim
    | leaving isLast sound starts =>
        rw [phase] at isLast
        cases isLast
  rcases moves_writing phase moved with
    ⟨later, octets, turn, more, -, rfl⟩ | ⟨fault, same, rfl⟩
  · rw [interim] at turn
    have entered : (Ledger.of service.serverName (deeds ++ [deed])).answers =
          (Ledger.of service.serverName deeds).answers ∧
        (Ledger.of service.serverName (deeds ++ [deed])).ahead =
          (Ledger.of service.serverName deeds).ahead ++ octets := by
      rw [Ledger.of_append]
      rcases turn with ⟨rfl, -⟩ | ⟨rfl, rfl⟩
      · exact ⟨rfl, rfl⟩
      · rw [Ledger.enter_silent service.serverName _ (show Ledger.isSilent .other = true from rfl),
          List.append_nil]
        exact ⟨rfl, rfl⟩
    have quiet : Deed.heardIn [deed] = [] := by
      rcases turn with ⟨rfl, -⟩ | ⟨rfl, -⟩ <;> rfl
    have answered := congrArg List.length entered.1
    have extents := View.extents_quiet service.serverName deeds quiet
    split
    · rename_i done
      refine drained _ answered extents ?_ _
      rw [← more, (Outbox.isDrained_iff _).1 done, List.append_nil] at whole
      exact entered.2.trans whole
    · exact partly _ answered extents _
  · exact watches_last (failed _ fault)

/-- Inside an answer nothing is read. -/
theorem watches_answering {before : List Account} {account : Account}
    (reads : Reads service.limits (Deed.heardIn deeds) taken connection.intake
      connection.readClosed)
    (ledger : Ledger.of service.serverName deeds = ⟨before ++ [account], []⟩)
    (answers : connection.phase.Answers service account)
    (tracks : Tracks False (View.of service.serverName deeds).answered
      (View.of service.serverName deeds).extents connection.intake connection.readClosed)
    (due : (View.of service.serverName deeds).due →
      (View.of service.serverName deeds).next? = some .bare)
    (moved : connection.Moves service peer deed after) :
    after.Watches (.of service.serverName (deeds ++ [deed])) := by
  obtain ⟨concerns, goesOn⟩ := goes answers moved
  have entered := Ledger.enter_last service.serverName before account concerns
  have follows : (View.of service.serverName deeds).Follows
      (View.of service.serverName (deeds ++ [deed])) := by
    apply View.follows_of
    · rw [ledger, entered]
      simp
    · rw [ledger, entered]
  have quiet : Deed.heardIn [deed] = [] := by
    refine Deed.heardIn_quiet ?_
    rintro received rfl
    rcases concerns with none | ⟨_, _, _, none, -⟩ <;> cases none
  have extents := View.extents_quiet service.serverName deeds quiet
  rw [← extents, ← follows.answered] at tracks
  have dueNow : (View.of service.serverName (deeds ++ [deed])).due →
      (View.of service.serverName (deeds ++ [deed])).next? = some .bare := by
    intro wasDue
    refine (follows.due wasDue).elim id fun earlier => ?_
    rw [View.next?, extents, follows.answered]
    exact due earlier
  cases goesOn with
  | on intake closed answers =>
      exact watches_answers answers (by rw [intake, closed]; exact tracks) dueNow
  | leaves last within => exact watches_last last
  | next settled silent other intake closed looks =>
      rw [looks]
      exact watches_next (by rw [intake, closed]; exact tracks) (by rw [intake, closed]; exact reads)
        dueNow

/-- An answer begins: from now on the request behind is the next one. -/
theorem watches_begun
    (tracks : Tracks False ((View.of service.serverName deeds).answered + 1)
      (View.of service.serverName deeds).extents connection.intake connection.readClosed)
    {account : Account}
    (begins : Ledger.of service.serverName (deeds ++ [deed]) =
      (Ledger.of service.serverName deeds).start account)
    (quiet : Deed.heardIn [deed] = []) :
    Tracks False (View.of service.serverName (deeds ++ [deed])).answered
        (View.of service.serverName (deeds ++ [deed])).extents connection.intake
        connection.readClosed ∧
      ((View.of service.serverName (deeds ++ [deed])).due →
        (View.of service.serverName (deeds ++ [deed])).next? = some .bare) := by
  have answered : (View.of service.serverName (deeds ++ [deed])).answered =
      (View.of service.serverName deeds).answered + 1 := by
    show (Ledger.of service.serverName (deeds ++ [deed])).answers.length = _
    rw [begins, Ledger.start, List.length_append]
    rfl
  have extents := View.extents_quiet service.serverName deeds quiet
  rw [← answered, ← extents] at tracks
  refine ⟨tracks, fun wasDue => ?_⟩
  rcases View.due_concat wasDue with bare | ⟨same, -⟩
  · exact bare
  · omega

/-- The application is called, or its task could not be made. -/
theorem watches_spawning {request : Request} (phase : connection.phase = .spawning request)
    (tracks : Tracks False ((View.of service.serverName deeds).answered + 1)
      (View.of service.serverName deeds).extents connection.intake connection.readClosed)
    (moved : connection.Moves service peer deed after) :
    after.Watches (.of service.serverName (deeds ++ [deed])) := by
  rcases moves_spawning phase moved with ⟨rfl, id, rfl⟩ | ⟨rfl, fault, rfl⟩
  · exact .inr (watches_begun tracks (Ledger.of_append _ _ _) rfl)
  · exact .inr (watches_begun tracks (Ledger.of_append _ _ _) rfl)

/-- **Every run leaves the connection standing with what was seen of it.** -/
theorem watches (run : Run service peer deeds connection) :
    connection.Watches (.of service.serverName deeds) := by
  induction run with
  | opened => exact ⟨Intake.tracks_opened.mono False.elim, fun request rest items => by cases items⟩
  | @step deeds connection after deed before moved ih =>
      cases last : connection.phase.isLast with
      | true => exact watches_last (moves_last last moved).2
      | false =>
          have inAnswer : connection.phase.isLast = true ∨
              Tracks False (View.of service.serverName deeds).answered
                (View.of service.serverName deeds).extents connection.intake
                connection.readClosed ∧
              ((View.of service.serverName deeds).due →
                (View.of service.serverName deeds).next? = some .bare) →
              (∀ ahead, ¬ connection.Waits service ahead) →
              after.Watches (.of service.serverName (deeds ++ [deed])) := by
            intro watches waitsNot
            obtain ⟨tracks, due⟩ := watches.resolve_left (by rw [last]; decide)
            cases before.stands.1 with
            | between taken reads settled starts waits => exact absurd waits (waitsNot _)
            | answering taken earlier account reads ledger settled interim starts answers =>
                exact watches_answering reads ledger answers tracks due moved
            | leaving isLast sound starts =>
                rw [last] at isLast
                cases isLast
          cases phase : connection.phase with
          | receiving idle => exact before.watches_receiving phase ih moved
          | tellingReadFault fault idle =>
              obtain ⟨rfl, rfl⟩ := moves_tellingReadFault phase moved
              simp only [Watches, phase] at ih
              obtain ⟨tracks, waits⟩ := ih
              have isOpen : connection.readClosed = false := by
                cases before.holds with
                | recorded taken recorded => simp [isRecorded, phase] at recorded
                | telling _ _ _ _ _ _ isOpen => exact isOpen
              rw [isOpen] at tracks
              obtain ⟨tracks, waits⟩ := before.waits_later (by rw [isReading, phase]) tracks waits
                (View.follows_silent rfl)
                (View.extents_quiet service.serverName _ (show Deed.heardIn [.other] = [] from rfl))
              exact watches_cutShort tracks waits _ idle
          | writing flush purpose =>
              cases purpose with
              | interimWhileReading =>
                  simp only [Watches, phase] at ih
                  obtain ⟨tracks, bare, request, rest, items, asks⟩ := ih
                  refine before.watches_interim phase rfl moved ?_ ?_ fun _ _ => rfl
                  · intro later answered extents told sent
                    rw [← answered, ← extents] at tracks
                    exact ⟨tracks.mono fun _ => told, fun _ _ _ _ _ => told⟩
                  · intro later answered extents flush
                    rw [View.next?, ← answered, ← extents] at bare
                    rw [← answered, ← extents] at tracks
                    exact ⟨tracks, bare, request, rest, items, asks⟩
              | interimBefore request =>
                  simp only [Watches, phase] at ih
                  obtain ⟨tracks, bare, asks⟩ := ih
                  refine before.watches_interim phase rfl moved ?_ ?_ fun _ _ => rfl
                  · intro later answered extents told sent
                    rw [← answered, ← extents] at tracks
                    exact ⟨tracks, fun _ _ => told⟩
                  · intro later answered extents flush
                    rw [View.next?, ← answered, ← extents] at bare
                    rw [← answered, ← extents] at tracks
                    exact ⟨tracks, bare, asks⟩
              | errorPage status facts =>
                  rcases moves_writing phase moved with
                    ⟨later, octets, -, -, -, rfl⟩ | ⟨fault, -, rfl⟩
                  · split
                    · exact watches_last rfl
                    · trivial
                  · exact watches_last rfl
              | piece _ _ | fileHead _ _ | lastChunk _ =>
                  simp only [Watches, phase] at ih
                  exact inAnswer (by rw [phase]; exact ih) (by simp [Waits, phase])
          | spawning request =>
              simp only [Watches, phase] at ih
              exact watches_spawning phase ih.1 moved
          | _ =>
              simp only [Watches, phase] at ih
              exact inAnswer (by rw [phase]; exact ih) (by simp [Waits, phase])

end Run

/-! ## Moments of a run -/

namespace Run

variable {before later : List Deed}

/-- Between answers all earlier ones are out as a whole. -/
theorem earlier_settled (run : Run service peer deeds connection)
    (answersNot : ∀ account, ¬ connection.phase.Answers service account)
    (goesOn : connection.phase.isLast = false) :
    ∃ taken, Reads service.limits (Deed.heardIn deeds) taken connection.reading.1
        connection.reading.2 ∧
      Ledger.AllSettled (Ledger.of service.serverName deeds).answers ∧
      (Ledger.of service.serverName deeds).starts ++ connection.phase.announced =
        taken.map Start.of ∧
      connection.Waits service (Ledger.of service.serverName deeds).ahead := by
  cases run.stands.1 with
  | between taken reads settled starts waits => exact ⟨taken, reads, settled, starts, waits⟩
  | answering taken earlier account reads last settled interim starts answers =>
      exact absurd answers (answersNot account)
  | leaving isLast sound starts =>
      rw [goesOn] at isLast
      cases isLast

/-- The request that was taken up is the next one in order of arrival. -/
theorem announced_arrived {heard : List Received} {ledger : Ledger} {taken : List Request}
    {intake : Intake} {closed : Bool} {request : Request}
    (reads : Reads service.limits heard taken intake closed)
    (starts : ledger.starts ++ [.called request] = taken.map Start.of) :
    ∃ arrived, (hearAll service.limits heard).queue.items[ledger.answers.length]? = some arrived ∧
      arrived.settled = request := by
  have called : (taken.map Start.of)[ledger.answers.length]? = some (.called request) := by
    rw [← starts, show ledger.answers.length = ledger.starts.length by simp [Ledger.starts],
      List.getElem?_concat_length]
  rw [List.getElem?_map, Option.map_eq_some_iff] at called
  obtain ⟨took, foundTook, start⟩ := called
  obtain ⟨others, arrivals⟩ := reads.takenFirst
  have there : ((hearAll service.limits heard).queue.items.map Request.settled)[
      ledger.answers.length]? = some took := by
    rw [← arrivals, List.getElem?_append_left (List.getElem?_eq_some_iff.1 foundTook).1, foundTook]
  rw [List.getElem?_map, Option.map_eq_some_iff] at there
  obtain ⟨arrived, found, rfl⟩ := there
  refine ⟨arrived, found, ?_⟩
  rw [Start.of_settled, Start.of] at start
  split at start
  · cases start
  · cases start
    rfl

/-- While the connection reads, the first request is the next one in order of arrival. -/
theorem first_arrived {heard : List Received} {ledger : Ledger} {taken : List Request}
    {intake : Intake} {closed : Bool} {request : Request} {rest : List Request}
    (reads : Reads service.limits heard taken intake closed)
    (starts : ledger.starts ++ [] = taken.map Start.of)
    (items : intake.queue.items = request :: rest) :
    ∃ arrived, (hearAll service.limits heard).queue.items[ledger.answers.length]? = some arrived ∧
      arrived.settled = request.settled := by
  have size : ledger.answers.length = taken.length := by
    have length := congrArg List.length starts
    simpa [Ledger.starts] using length
  have behind := reads.behind
  rw [RequestQueue.Behind, items] at behind
  have there : ((hearAll service.limits heard).queue.items.map Request.settled)[
      ledger.answers.length]? = some request.settled := by
    rw [behind, size, List.getElem?_append_right (Nat.le_refl _), Nat.sub_self]
    rfl
  rw [List.getElem?_map, Option.map_eq_some_iff] at there
  obtain ⟨arrived, found, same⟩ := there
  exact ⟨arrived, found, same⟩

/-- An interim answer goes out behind whole answers, to the next request, which asks for it,
and of whose message the head was read and nothing of the body. -/
theorem interim_due {octets : Bytes}
    (run : Run service peer (before ++ .wrote .interim octets :: later) after) :
    (∀ account ∈ (Ledger.of service.serverName before).answers,
      account.octets = account.due ∧ account.kept = true) ∧
    (∃ request, (hearAll service.limits (Deed.heardIn before)).queue.items[
        (Ledger.of service.serverName before).answers.length]? = some request ∧ request.Asks) ∧
    (Received.extents (Deed.heardIn before))[
      (Ledger.of service.serverName before).answers.length]? = some .bare := by
  obtain ⟨connection, next, earlier, moved⟩ := run.step_inv
  have watches := earlier.watches
  have interim := moves_wroteInterim moved
  obtain ⟨taken, reads, settled, starts, -⟩ := earlier.earlier_settled
    (by rcases interim with ⟨_, phase⟩ | ⟨_, _, phase⟩ <;> simp [phase, Phase.Answers])
    (by rcases interim with ⟨_, phase⟩ | ⟨_, _, phase⟩ <;> rw [phase] <;> rfl)
  refine ⟨fun account member =>
    ⟨(settled account member).2.whole, (settled account member).2.kept⟩, ?_⟩
  rcases interim with ⟨flush, phase⟩ | ⟨flush, request, phase⟩
  · simp only [Watches, phase] at watches
    obtain ⟨-, bare, request, rest, items, asks⟩ := watches
    simp only [reading, phase] at reads
    rw [phase] at starts
    obtain ⟨arrived, found, same⟩ := first_arrived reads starts items
    rw [← Request.settled_asks, ← same, Request.settled_asks] at asks
    exact ⟨⟨arrived, found, asks⟩, bare⟩
  · simp only [Watches, phase] at watches
    obtain ⟨-, bare, asks⟩ := watches
    simp only [reading, phase] at reads
    rw [phase] at starts
    obtain ⟨arrived, found, rfl⟩ := announced_arrived reads starts
    exact ⟨⟨arrived, found, asks⟩, bare⟩

/-- A request for which the application is called, and which asks to be told to go on, was told;
or some of its body had come whenever its head had been read. -/
theorem called_told {request : Request}
    (run : Run service peer (before ++ .called request :: later) after) :
    (∃ arrived, (hearAll service.limits (Deed.heardIn before)).queue.items[
        (Ledger.of service.serverName before).answers.length]? = some arrived ∧
      arrived.settled = request) ∧
    (request.Asks → (Ledger.of service.serverName before).ahead = Status.interim ∨
      ∀ first rest extent, before = first ++ rest →
        (Ledger.of service.serverName first).answers.length =
          (Ledger.of service.serverName before).answers.length →
        (Received.extents (Deed.heardIn first))[
          (Ledger.of service.serverName before).answers.length]? = some extent →
        extent.head = true → extent.body = true) := by
  obtain ⟨connection, next, earlier, moved⟩ := run.step_inv
  have phase := moves_called moved
  have watches := earlier.watches
  simp only [Watches, phase] at watches
  obtain ⟨taken, reads, -, starts, -⟩ := earlier.earlier_settled
    (by simp [phase, Phase.Answers]) (by rw [phase]; rfl)
  simp only [reading, phase] at reads
  rw [phase] at starts
  refine ⟨announced_arrived reads starts, fun asks => ?_⟩
  by_cases due : (View.of service.serverName before).due
  · exact .inl (watches.2 due asks)
  · refine .inr fun first rest extent split same found headRead => ?_
    by_contra none
    have bare : extent = .bare := by
      obtain ⟨head, body⟩ := extent
      cases headRead
      cases body with
      | true => exact absurd rfl none
      | false => rfl
    rw [bare] at found
    exact due ⟨first, rest, split, same, found⟩

/-- **A client is told to go on at most once, in its turn, and before its body comes.**  In every
run the interim answer goes out at most once before each answer, and nothing else but answers
goes out.  Whenever some of it goes out, all earlier answers are out as a whole and were kept,
the answer to the request has not begun, and the request is the next one in order of arrival,
says HTTP/1.1 and expects to be told to go on; its head was read, and nothing of its body.  When
the application is called for such a request, either all of the interim answer went out before,
or at every moment since the last answer had begun at which the head of the request was read,
some of its body had been read, too. -/
theorem told_in_turn (run : Run service peer deeds connection) :
    Deed.written deeds =
        ((Ledger.of service.serverName deeds).answers.flatMap fun account =>
            account.interim ++ account.octets) ++
          (Ledger.of service.serverName deeds).ahead ∧
      (∀ account ∈ (Ledger.of service.serverName deeds).answers,
        account.interim = [] ∨ account.interim = Status.interim) ∧
      (Ledger.of service.serverName deeds).ahead <+: Status.interim ∧
      (∀ before octets later, deeds = before ++ .wrote .interim octets :: later →
        (∀ account ∈ (Ledger.of service.serverName before).answers,
          account.octets = account.due ∧ account.kept = true) ∧
        (∃ request, (hearAll service.limits (Deed.heardIn before)).queue.items[
            (Ledger.of service.serverName before).answers.length]? = some request ∧
          request.Asks) ∧
        (Received.extents (Deed.heardIn before))[
          (Ledger.of service.serverName before).answers.length]? = some .bare) ∧
      ∀ before request later, deeds = before ++ .called request :: later →
        (∃ arrived, (hearAll service.limits (Deed.heardIn before)).queue.items[
            (Ledger.of service.serverName before).answers.length]? = some arrived ∧
          arrived.settled = request) ∧
        (request.Asks → (Ledger.of service.serverName before).ahead = Status.interim ∨
          ∀ first rest extent, before = first ++ rest →
            (Ledger.of service.serverName first).answers.length =
              (Ledger.of service.serverName before).answers.length →
            (Received.extents (Deed.heardIn first))[
              (Ledger.of service.serverName before).answers.length]? = some extent →
            extent.head = true → extent.body = true) := by
  obtain ⟨standing, octets, -⟩ := run.stands
  obtain ⟨sound, -⟩ := standing.inOrder
  refine ⟨octets.symm, fun account member => (sound.accounts account member).interim, sound.ahead,
    ?_, ?_⟩
  · rintro before octets later rfl
    exact run.interim_due
  · rintro before request later rfl
    exact run.called_told

/-- A client that sends the head of a request and then its body. -/
def expecting (head body : String) : Session :=
  serve greeting Peer.unix 4
    (Session.start [.data (Bytes.ofAscii head), .data (Bytes.ofAscii body)])

/-- The request for which the application is called after so many deeds. -/
theorem split_called {n : Nat} {p : Request → Bool}
    (found : deeds[n]?.any (Deed.calls p) = true) :
    ∃ request, deeds = deeds.take n ++ .called request :: deeds.drop (n + 1) ∧
      p request = true := by
  cases there : deeds[n]? with
  | none =>
      rw [there] at found
      cases found
  | some deed =>
      obtain ⟨inside, same⟩ := List.getElem?_eq_some_iff.1 there
      rw [there] at found
      cases deed with
      | called request =>
          refine ⟨request, ?_, found⟩
          rw [← same, ← List.drop_eq_getElem_cons inside, List.take_append_drop]
      | _ => cases found

/-- The head comes first, and the client is told to go on before it sends the body. -/
theorem expecting_told :
    let session := expecting
      "POST / HTTP/1.1\r\nExpect: 100-continue\r\nContent-Length: 5\r\n\r\n" "hello"
    ∃ before request later, session.deeds = before ++ .called request :: later ∧
      request.Asks ∧ (Ledger.of greeting.serverName before).ahead = Status.interim := by
  intro session
  let before := session.deeds.take 3
  -- behind the first read the head was read, and nothing of the body
  obtain ⟨calls, same, bare⟩ :
      session.deeds[3]?.any (Deed.calls fun request => decide request.Asks) = true ∧
      (Ledger.of greeting.serverName (before.take 1)).answers.length =
        (Ledger.of greeting.serverName before).answers.length ∧
      (Received.extents (Deed.heardIn (before.take 1)))[
        (Ledger.of greeting.serverName before).answers.length]? = some .bare := by
    decide +kernel
  obtain ⟨request, split, asks⟩ := split_called calls
  have asks : request.Asks := of_decide_eq_true asks
  obtain ⟨-, -, -, -, called⟩ := told_in_turn (serve_run 4 .opened : Run greeting Peer.unix
    session.deeds session.connection)
  refine ⟨before, request, _, split, asks, ?_⟩
  refine ((called _ request _ split).2 asks).resolve_right fun always => ?_
  have body := always _ _ .bare (List.take_append_drop 1 before).symm same bare rfl
  cases body

/-- When the end of the head comes together with the body, the client is not told to go on,
although its request was the next one already when nothing of the body had been read. -/
theorem expecting_untold :
    let session := expecting
      "POST / HTTP/1.1\r\nExpect: 100-continue\r\nContent-Length: 5\r\n" "\r\nhello"
    ¬ ∀ before request later, session.deeds = before ++ .called request :: later →
      request.Asks → (Ledger.of greeting.serverName before).ahead = Status.interim ∨
        ∀ first rest extent, before = first ++ rest →
          (Ledger.of greeting.serverName first).answers.length =
            (Ledger.of greeting.serverName before).answers.length →
          (Received.extents (Deed.heardIn first))[
            (Ledger.of greeting.serverName before).answers.length]? = some extent →
          extent.body = true := by
  intro session told
  let before := session.deeds.take 2
  -- behind the first read the message has begun
  obtain ⟨calls, nothing, same, begun⟩ :
      session.deeds[2]?.any (Deed.calls fun request => decide request.Asks) = true ∧
      (Ledger.of greeting.serverName before).ahead = [] ∧
      (Ledger.of greeting.serverName (before.take 1)).answers.length =
        (Ledger.of greeting.serverName before).answers.length ∧
      (Received.extents (Deed.heardIn (before.take 1)))[
        (Ledger.of greeting.serverName before).answers.length]? = some .begun := by
    decide +kernel
  obtain ⟨request, split, asks⟩ := split_called calls
  have asks : request.Asks := of_decide_eq_true asks
  rcases told before request _ split asks with ahead | always
  · rw [nothing] at ahead
    cases ahead
  · have body := always _ _ .begun (List.take_append_drop 1 before).symm same begun
    cases body

end Run

end Connection

end EmbeddedHttp
