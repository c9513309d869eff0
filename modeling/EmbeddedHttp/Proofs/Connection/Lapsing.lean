/-
# EmbeddedHttp.Proofs.Connection.Lapsing -- when nothing more is read

A read may time out, find the end of the stream or fail.  Between messages the connection
then closes and says nothing; inside a message it writes one page, calls no application,
and closes (`Connection.Run.lapsed`).  Which of the two it does is decided by the octets
that were read and by nothing else (`Connection.Run.idle_iff`).

That a connection closes is said by `Connection.Closes`: whatever happens from some point
on, as long as the socket takes something of what it is offered, ends with the connection
closed.
-/
import EmbeddedHttp.Proofs.Connection.Awaiting
import EmbeddedHttp.Proofs.Message.Between
import EmbeddedHttp.Proofs.Request.Streams
import EmbeddedHttp.Proofs.Response.Pages

namespace EmbeddedHttp

set_option autoImplicit false

open Intake (Reads hearAll)

variable {Call : Type} {Answer : Call → Type} {service : Service Call Answer} {peer : Peer}
  {connection after : Connection Call Answer} {deed : Deed} {deeds before later : List Deed}

/-- The socket failed. -/
def Deed.isBreak : Deed → Bool
  | .broke _ => true
  | _ => false

/-- What was heard was heard in that order. -/
theorem Deed.heardIn_split {heard rest : List Received} {received : Received}
    (same : heardIn deeds = heard ++ received :: rest) :
    ∃ before later, deeds = before ++ .heard received :: later ∧ heardIn before = heard ∧
      heardIn later = rest := by
  obtain ⟨first, second, rfl, front, back⟩ := List.filterMap_eq_append_iff.1 same
  obtain ⟨quiet, deed, later, rfl, silent, told, others⟩ := List.filterMap_eq_cons_iff.1 back
  refine ⟨first ++ quiet, later, ?_, ?_, others⟩
  · cases deed with
    | heard _ =>
        cases told
        rw [List.append_assoc]
    | _ => cases told
  · rw [heardIn, List.filterMap_append, List.filterMap_eq_nil_iff.2 silent, List.append_nil]
    exact front

namespace Outbox

/-- What a socket took of a single segment is cut off it. -/
theorem advance_single {outbox : Outbox} {n : Nat} {rest : Bytes}
    (pending : outbox.pending = [rest]) (some_octets : 0 < n) (within : n ≤ rest.length) :
    (outbox.advance n).pending = if n < rest.length then [rest.drop n] else [] := by
  have all : outbox.remaining = rest.length := by simp [remaining_eq, pending]
  have inside := outbox.inside.2
  have stays : (outbox.advance n).segments = outbox.segments := rfl
  rw [Outbox.pending] at pending
  cases behind : outbox.segments.drop outbox.index with
  | nil =>
      rw [behind] at pending
      cases pending
  | cons segment others =>
      rw [behind] at pending inside
      obtain ⟨rfl, rfl⟩ := List.cons.inj pending
      rw [List.length_drop] at within all
      have reached : passOver n [segment] outbox.index outbox.offset =
          if n < segment.length - outbox.offset then (outbox.index, outbox.offset + n)
          else (outbox.index + 1, 0) := by
        rw [passOver, if_neg (Nat.ne_of_gt some_octets)]
        rfl
      have cursor : ((outbox.advance n).index, (outbox.advance n).offset) =
          passOver n [segment] outbox.index outbox.offset := by
        simp only [advance, all, Nat.min_eq_left within, behind]
      rw [reached] at cursor
      rw [Outbox.pending, stays, List.length_drop]
      split at cursor
      · rename_i part
        obtain ⟨index, offset⟩ := Prod.mk.inj cursor
        rw [index, offset, behind, if_pos part, List.drop_drop]
      · rename_i all
        rw [(Prod.mk.inj cursor).1, ← List.drop_drop, behind, if_neg all]
        rfl

theorem push_single {segment : Bytes} (some : segment ≠ []) :
    (empty.push segment).pending = [segment] := by
  simp [push, empty, queued, Outbox.pending, some]

end Outbox

/-- The first line of the page behind a read that gave nothing more. -/
def Intake.lapseLine : Received → String
  | .timedOut => "HTTP/1.0 408 Request Timeout"
  | .data _ => "HTTP/1.0 503 Service Unavailable"
  | .failed _ => "HTTP/1.0 500 Internal Server Error"

theorem Intake.lapse_pageLine (received : Received) :
    (lapse received).pageLine = lapseLine received := by
  have spelled : Status.requestTimeout.pageLine = "HTTP/1.0 408 Request Timeout" ∧
      Status.serviceUnavailable.pageLine = "HTTP/1.0 503 Service Unavailable" ∧
      Status.internalServerError.pageLine = "HTTP/1.0 500 Internal Server Error" := by decide
  cases received with
  | timedOut => exact spelled.1
  | data _ => exact spelled.2.1
  | failed _ => exact spelled.2.2

namespace Connection

/-! ## Closing -/

/-- The socket takes some of what it is offered, and when it is waited for it can take
more. -/
def Taken (connection : Connection Call Answer) (deed : Deed) : Prop :=
  ∀ flush purpose, connection.phase = .writing flush purpose →
    if flush.blocked then deed = .other else ∃ octets, deed = .wrote purpose.share octets

/-- Whatever happens, as long as the socket takes what it is offered, the connection goes on
until it is closed. -/
inductive Closes (service : Service Call Answer) (peer : Peer) : Connection Call Answer → Prop where
  | closed {connection : Connection Call Answer} (phase : connection.phase = .closed) :
      Closes service peer connection
  | goesOn {connection : Connection Call Answer}
      (some : ∃ deed after, connection.Moves service peer deed after ∧ connection.Taken deed)
      (all : ∀ deed after, connection.Moves service peer deed after → connection.Taken deed →
        Closes service peer after) : Closes service peer connection

/-- It does not end in any other way. -/
theorem Closes.closed_of_over (closes : connection.Closes service peer)
    (ended : connection.isOver = true) : connection.phase = .closed := by
  cases closes with
  | closed phase => exact phase
  | goesOn some all =>
      obtain ⟨deed, after, moved, -⟩ := some
      cases phase : connection.phase with
      | closed => rfl
      | broken _ | overflowed =>
          simp only [Moves, next, phase] at moved
          cases moved
      | _ => simp [isOver, phase] at ended

/-- How many steps a connection that has nothing left to do takes at most until it is
closed. -/
def stepsLeft? (connection : Connection Call Answer) : Option Nat :=
  match connection.phase with
  | .uncorkingPage _ _ _ => some 4
  | .tellingPage _ | .tellingReadFault _ true => some 3
  | .leaving => some 2
  | .hurrying => some 1
  | .closed => some 0
  | _ => none

/-- A connection that has nothing left to do only goes on to be closed. -/
theorem departs {n : Nat} (departs : connection.stepsLeft? = some n)
    (moved : connection.Moves service peer deed after) :
    deed = .other ∧ ∃ m < n, after.stepsLeft? = some m := by
  cases phase : connection.phase with
  | uncorkingPage status facts size =>
      simp only [stepsLeft?, phase, Option.some_inj] at departs
      subst departs
      simp only [Moves, next, phase] at moved
      cases moved
      refine ⟨rfl, ?_⟩
      simp only [afterPage]
      split
      · split
        · exact ⟨3, by decide, rfl⟩
        · exact ⟨2, by decide, rfl⟩
      · split
        · exact ⟨2, by decide, rfl⟩
        · exact ⟨3, by decide, rfl⟩
  | tellingReadFault fault idle =>
      cases idle with
      | false => simp [stepsLeft?, phase] at departs
      | true =>
          simp only [stepsLeft?, phase, Option.some_inj] at departs
          subst departs
          obtain ⟨rfl, rfl⟩ := moves_tellingReadFault phase moved
          exact ⟨rfl, 2, by decide, rfl⟩
  | tellingPage _ | leaving | hurrying =>
      simp only [stepsLeft?, phase, Option.some_inj] at departs
      subst departs
      simp only [Moves, next, phase] at moved
      cases moved
      exact ⟨rfl, _, Nat.lt_succ_self _, rfl⟩
  | closed =>
      simp only [Moves, next, phase] at moved
      cases moved
  | _ => simp [stepsLeft?, phase] at departs

/-- Until it is closed, it can go on. -/
theorem departs_some {n : Nat} (departs : connection.stepsLeft? = some n) :
    connection.phase = .closed ∨ ∃ after, connection.Moves service peer .other after := by
  cases phase : connection.phase with
  | closed => exact .inl rfl
  | uncorkingPage _ _ _ | tellingReadFault _ _ | tellingPage _ | leaving | hurrying =>
      right
      simp only [Moves, next, phase]
      exact ⟨_, by constructor⟩
  | _ => simp [stepsLeft?, phase] at departs

theorem closes_of_departs {n : Nat} (departing : connection.stepsLeft? = some n) :
    connection.Closes service peer := by
  induction n using Nat.strongRecOn generalizing connection with
  | ind n ih =>
      have goesOn : connection.phase = .closed ∨
          ∃ after, connection.Moves service peer .other after := departs_some departing
      rcases goesOn with closed | ⟨after, moved⟩
      · exact .closed closed
      · refine .goesOn ⟨.other, after, moved, ?_⟩ fun deed after moved _ => ?_
        · intro flush purpose phase
          simp [stepsLeft?, phase] at departing
        · obtain ⟨-, m, fewer, left⟩ := departs departing moved
          exact ih m fewer left

/-! ## Writing the page -/

/-- A page is being written, and this is left of it. -/
def Pages (connection : Connection Call Answer) (flush : Flush) (status : Status)
    (rest : Bytes) : Prop :=
  connection.phase = .writing flush (.errorPage status none) ∧ flush.outbox.pending = [rest] ∧
    rest ≠ []

variable {flush : Flush} {status : Status} {rest : Bytes}

/-- What a turn at a page comes to: the socket, which was waited for, can take more; or it took
some octets; or it took none this time, or failed for good. -/
theorem moves_page (pages : connection.Pages flush status rest)
    (moved : connection.Moves service peer deed after) :
    flush.blocked = true ∧ deed = .other ∧
        after.Pages { flush with blocked := false } status rest ∨
      flush.blocked = false ∧ (∃ n, 0 < n ∧ n ≤ rest.length ∧
        deed = .wrote (.refusal status) (rest.take n) ∧
        (n = rest.length → after.stepsLeft? = some 4) ∧
        (n < rest.length → ∃ outbox,
          after.Pages { flush with outbox := outbox } status (rest.drop n))) ∨
      flush.blocked = false ∧ deed = .other ∧ (∃ blocked,
        after.Pages { flush with blocked := blocked } status rest) ∨
      deed = .broke (.refusal status) := by
  obtain ⟨outbox, timeout, blocked⟩ := flush
  obtain ⟨phase, pending, some⟩ := pages
  dsimp only at pending
  have share : connection.share = .refusal status := by
    simp only [Connection.share, phase, Purpose.share]
  have asks : connection.next service peer = .wire (Flush.ask ⟨outbox, timeout, blocked⟩)
      (connection.afterTurn service ⟨outbox, timeout, blocked⟩ (.errorPage status none)) := by
    simp only [next, phase]
  have undone : ∀ blocked, Flush.isDone ⟨outbox, timeout, blocked⟩ = false := by
    intro blocked
    exact Bool.eq_false_iff.2 fun drained => some (by simpa [pending] using (Outbox.isDrained_iff _).1 drained)
  rw [Moves, asks] at moved
  cases blocked with
  | true =>
      cases moved with
      | writable n =>
          refine .inl ⟨rfl, rfl, ?_, pending, some⟩
          simp only [afterTurn, Flush.take, if_true, undone, Bool.false_eq_true, if_false, goto]
      | notWritable fault => exact .inr (.inr (.inr (by rw [share])))
  | false =>
      have slices : outbox.slices.flatten = rest := by
        rw [Outbox.slices, pending]
        simp [Outbox.maxSlices]
      cases moved with
      | @wrote _ _ n some_octets offered =>
          rw [slices] at offered ⊢
          have cut := Outbox.advance_single pending some_octets offered
          have led : connection.afterTurn service ⟨outbox, timeout, false⟩
              (.errorPage status none) (.ok n) =
                if Flush.isDone ⟨outbox.advance n, timeout, false⟩ then
                  connection.afterWriting service (outbox.advance n).sent
                    (.errorPage status none) none
                else connection.goto (.writing ⟨outbox.advance n, timeout, false⟩
                  (.errorPage status none)) := by
            obtain ⟨m, rfl⟩ : ∃ m, n = m + 1 := ⟨n - 1, by omega⟩
            simp only [afterTurn, Flush.take, Bool.false_eq_true, if_false]
          rw [led]
          refine .inr (.inl ⟨rfl, n, some_octets, offered, by rw [share], fun all => ?_,
            fun part => ⟨outbox.advance n, ?_⟩⟩)
          · rw [if_neg (by omega)] at cut
            have finished : Flush.isDone ⟨outbox.advance n, timeout, false⟩ = true :=
              (Outbox.isDrained_iff _).2 (by rw [cut]; rfl)
            rw [if_pos finished]
            rfl
          · rw [if_pos part] at cut
            have left : rest.drop n ≠ [] := by
              rw [ne_eq, List.drop_eq_nil_iff]
              omega
            have goesOn : Flush.isDone ⟨outbox.advance n, timeout, false⟩ = false := by
              refine Bool.eq_false_iff.2 fun drained => left ?_
              simpa [cut] using (Outbox.isDrained_iff _).1 drained
            rw [goesOn]
            exact ⟨rfl, cut, left⟩
      | tookNothing => exact .inr (.inr (.inr (by rw [share])))
      | @writeAgain _ _ fault passing =>
          refine .inr (.inr (.inl ⟨rfl, rfl, fault.isWouldBlock, ?_, pending, some⟩))
          by_cases block : fault.isWouldBlock = true
          · simp only [afterTurn, Flush.take, Bool.false_eq_true, if_false, block, if_true, undone,
              goto]
          · have interrupted := passing.resolve_left block
            simp only [afterTurn, Flush.take, Bool.false_eq_true, if_false, block, interrupted,
              if_true, undone, goto]
      | writeFailed final => exact .inr (.inr (.inr (by rw [share])))

/-- Some turn at a page succeeds. -/
theorem pages_goOn (pages : connection.Pages flush status rest) :
    ∃ deed after, connection.Moves service peer deed after ∧ connection.Taken deed := by
  obtain ⟨outbox, timeout, blocked⟩ := flush
  obtain ⟨phase, pending, some⟩ := pages
  have only : ∀ flush purpose, connection.phase = .writing flush purpose →
      flush = ⟨outbox, timeout, blocked⟩ := by
    intro flush purpose same
    rw [phase] at same
    cases same
    rfl
  cases blocked with
  | true =>
      refine ⟨.other, connection.afterTurn service ⟨outbox, timeout, true⟩
        (.errorPage status none) (.ok 0), ?_, fun flush purpose same => ?_⟩
      · simp only [Moves, next, phase]
        exact .writable 0
      · rw [only flush purpose same]
        rfl
  | false =>
      have offers : 1 ≤ outbox.slices.flatten.length := by
        rw [Outbox.slices, show outbox.pending = [rest] from pending]
        simpa [Outbox.maxSlices, Nat.one_le_iff_ne_zero] using some
      refine ⟨.wrote connection.share (outbox.slices.flatten.take 1),
        connection.afterTurn service ⟨outbox, timeout, false⟩ (.errorPage status none) (.ok 1), ?_,
        fun flush purpose same => ?_⟩
      · simp only [Moves, next, phase]
        exact .wrote Nat.one_pos offers
      · rw [only flush purpose same]
        exact ⟨_, by rw [Connection.share, same]⟩

/-- A page is written to its end, and then the connection closes. -/
theorem closes_of_pages (pages : connection.Pages flush status rest) :
    connection.Closes service peer := by
  induction size : rest.length using Nat.strongRecOn generalizing connection flush rest with
  | ind n ih =>
      have goesOn : ∀ {connection : Connection Call Answer} {flush : Flush},
          connection.Pages flush status rest → flush.blocked = false →
          connection.Closes service peer := by
        intro connection flush pages ready
        refine .goesOn (pages_goOn pages) fun deed after moved taken => ?_
        have wrote := taken flush _ pages.1
        rw [ready] at wrote
        obtain ⟨octets, rfl⟩ := wrote
        rcases moves_page pages moved with
          ⟨-, none, -⟩ | ⟨-, n, some_octets, within, -, whole, part⟩ | ⟨-, none, -⟩ | none
        · cases none
        · rcases Nat.lt_or_eq_of_le within with less | all
          · obtain ⟨outbox, left⟩ := part less
            refine ih _ ?_ left rfl
            rw [List.length_drop]
            omega
          · exact closes_of_departs (whole all)
        · cases none
        · cases none
      cases blocked : flush.blocked with
      | false => exact goesOn pages blocked
      | true =>
          -- a socket that was waited for is asked again with the same page
          refine .goesOn (pages_goOn pages) fun deed after moved taken => ?_
          have waited := taken flush _ pages.1
          rw [blocked, if_pos rfl] at waited
          subst waited
          rcases moves_page pages moved with ⟨-, -, again⟩ | ⟨ready, -⟩ | ⟨ready, -⟩ | failed
          · exact goesOn again rfl
          · rw [blocked] at ready
            cases ready
          · rw [blocked] at ready
            cases ready
          · cases failed

/-! ## When nothing more comes -/

/-- A page is begun. -/
theorem writePage_pages (connection : Connection Call Answer) (service : Service Call Answer)
    (status : Status) :
    ∃ flush, (connection.writePage service status none).Pages flush status
      (status.errorPage service.serverName) := by
  have some := (status.isPage_errorPage service.serverName).ne_nil
  rw [writePage]
  generalize status.errorPage service.serverName = page at some ⊢
  exact ⟨_, rfl, Outbox.push_single some, some⟩

/-- A message that is being received is refused with a page. -/
theorem closeReading_pages {request : Request}
    (items : connection.intake.queue.items = [request]) (unready : request.isReady = false)
    (service : Service Call Answer) (status : Status) :
    ∃ flush, ((connection.closeReading status).look service).Pages flush status
      (status.errorPage service.serverName) := by
  have recorded : (connection.closeReading status).intake.queue.items =
      [request.fail status] := by
    simp [closeReading, RequestQueue.recordFailure, RequestQueue.inProgress?, items, unready,
      Option.filter, RequestQueue.setLast]
  have ready : (request.fail status).isReady = true := by simp [Request.isReady, Request.fail]
  have looks : (connection.closeReading status).look service =
      { connection.closeReading status with
        intake := { (connection.closeReading status).intake with queue := ⟨[]⟩ } }.writePage
          service status none := by
    simp only [look, recorded, ready, if_true]
    exact dispatch_refused rfl
  rw [looks]
  exact writePage_pages _ service status

/-- The message that was being received is refused: this much of the page is out. -/
inductive Refuses (service : Service Call Answer) (status : Status) (written : Bytes)
    (connection : Connection Call Answer) : Prop where
  | telling (fault : IoFault) (request : Request)
      (phase : connection.phase = .tellingReadFault fault false)
      (items : connection.intake.queue.items = [request]) (unready : request.isReady = false)
      (same : status = .internalServerError) (nothing : written = [])
  | paging (flush : Flush) (rest : Bytes) (pages : connection.Pages flush status rest)
      (whole : written ++ rest = status.errorPage service.serverName)
  | departing (n : Nat) (left : connection.stepsLeft? = some n)
      (whole : written = status.errorPage service.serverName)

theorem Refuses.closes {written : Bytes} (refuses : Refuses service status written connection) :
    connection.Closes service peer := by
  cases refuses with
  | telling fault request phase items unready same nothing =>
      refine .goesOn ⟨.other, (connection.closeReading .internalServerError).look service, ?_, ?_⟩
        fun deed after moved _ => ?_
      · simp only [Moves, next, phase]
        exact .told
      · intro flush purpose other
        rw [phase] at other
        cases other
      · obtain ⟨-, rfl⟩ := moves_tellingReadFault phase moved
        obtain ⟨flush, pages⟩ := closeReading_pages items unready service .internalServerError
        exact closes_of_pages pages
  | paging flush rest pages whole => exact closes_of_pages pages
  | departing n left whole => exact closes_of_departs left

theorem Refuses.step {written : Bytes} (refuses : Refuses service status written connection)
    (moved : connection.Moves service peer deed after) (sound : ∀ share, deed ≠ .broke share) :
    (deed = .other ∨ ∃ octets, deed = .wrote (.refusal status) octets) ∧
      Refuses service status (written ++ deed.octets) after := by
  cases refuses with
  | telling fault request phase items unready same nothing =>
      obtain ⟨rfl, rfl⟩ := moves_tellingReadFault phase moved
      obtain ⟨flush, pages⟩ := closeReading_pages items unready service status
      subst nothing
      rw [if_neg (by decide), ← same]
      refine ⟨.inl rfl, .paging flush _ pages ?_⟩
      simp only [Deed.octets, List.append_nil, List.nil_append]
  | paging flush rest pages whole =>
      rcases moves_page pages moved with
        ⟨-, rfl, again⟩ | ⟨-, n, some_octets, within, rfl, all, part⟩ | ⟨-, rfl, _, again⟩ | rfl
      · exact ⟨.inl rfl, .paging _ rest again (by simpa [Deed.octets] using whole)⟩
      · refine ⟨.inr ⟨_, rfl⟩, ?_⟩
        rcases Nat.lt_or_eq_of_le within with less | same
        · obtain ⟨outbox, left⟩ := part less
          refine .paging _ _ left ?_
          rw [Deed.octets, List.append_assoc, List.take_append_drop]
          exact whole
        · refine .departing 4 (all same) ?_
          rw [Deed.octets, same, List.take_length]
          exact whole
      · exact ⟨.inl rfl, .paging _ rest again (by simpa [Deed.octets] using whole)⟩
      · exact absurd rfl (sound _)
  | departing n left whole =>
      obtain ⟨rfl, m, -, further⟩ := departs left moved
      exact ⟨.inl rfl, .departing m further (by simpa [Deed.octets] using whole)⟩

theorem Refuses.within {written : Bytes} (refuses : Refuses service status written connection) :
    written <+: status.errorPage service.serverName := by
  cases refuses with
  | telling _ _ _ _ _ _ nothing =>
      rw [nothing]
      exact List.nil_prefix
  | paging flush rest pages whole => exact ⟨rest, whole⟩
  | departing n left whole => exact whole ▸ List.prefix_rfl

theorem Refuses.whole {written : Bytes} (refuses : Refuses service status written connection)
    (closed : connection.phase = .closed) : written = status.errorPage service.serverName := by
  cases refuses with
  | telling _ _ phase =>
      rw [closed] at phase
      cases phase
  | paging flush rest pages =>
      have phase := pages.1
      rw [closed] at phase
      cases phase
  | departing n left whole => exact whole

namespace Run

/-- **Whether a connection is idle follows from the octets alone.** -/
theorem idle_iff (run : Run service peer deeds connection) {idle : Bool}
    (phase : connection.phase = .receiving idle) :
    idle = true ↔ BetweenMessages (Received.stream (Deed.heardIn deeds)) := by
  obtain ⟨isOpen, same⟩ := run.receives phase
  cases run.holds with
  | telling _ _ _ _ other =>
      rw [phase] at other
      cases other
  | recorded taken _ reads synced =>
      rw [isOpen] at reads synced
      obtain ⟨-, plain, sound, -⟩ := synced.reading rfl
      obtain ⟨events, read⟩ := Intake.hearAll_octets service.limits _ sound
      rw [← Parser.idle_iff_between read plain, same, ← reads.parser, Parser.isIdle, beq_iff_eq]

/-- Between messages no request is left. -/
theorem idle_empty (run : Run service peer deeds connection)
    (phase : connection.phase = .receiving true) : connection.intake.queue.items = [] := by
  obtain ⟨isOpen, same⟩ := run.receives phase
  have all := (run.queue_in_step.1.idle isOpen).1 same.symm
  have awaits := run.awaits (by rw [isReading, phase])
  cases items : connection.intake.queue.items with
  | nil => rfl
  | cons request rest =>
      have ready := all request (by rw [items]; exact List.mem_cons_self)
      rw [(awaits request rest items).1] at ready
      cases ready

/-- Inside a message its request is the only one that is left: all that came before it are
answered. -/
theorem inside_alone (run : Run service peer deeds connection)
    (phase : connection.phase = .receiving false) :
    ∃ request, connection.intake.queue.items = [request] ∧ request.isReady = false ∧
      ∃ earlier last, (hearAll service.limits (Deed.heardIn deeds)).queue.items =
          earlier ++ [last] ∧ last.complete = false ∧
        (Ledger.of service.serverName deeds).answers.map (·.start) = earlier.map Start.of := by
  obtain ⟨isOpen, same⟩ := run.receives phase
  obtain ⟨front, request, queue, all, -⟩ := run.queue_in_step.1.receiving isOpen same.symm
  have awaits := run.awaits (by rw [isReading, phase])
  have alone : front.items = [] := by
    cases items : front.items with
    | nil => rfl
    | cons first others =>
        have ready := all first (by rw [items]; exact List.mem_cons_self)
        have waits := (awaits first (others ++ [request])
          (by rw [queue, RequestQueue.push, items]; rfl)).1
        rw [ready] at waits
        cases waits
  have items : connection.intake.queue.items = [request] := by
    rw [queue, RequestQueue.push, alone]
    rfl
  have unready := (awaits request [] items).1
  refine ⟨request, items, unready, ?_⟩
  cases run.stands.1 with
  | answering taken before account reads last settled interim starts answers =>
      rw [phase] at answers
      cases answers
  | leaving isLast sound starts =>
      rw [phase] at isLast
      cases isLast
  | between taken reads settled starts waits =>
      simp only [reading, phase] at reads
      simp only [phase, Phase.announced, List.append_nil] at starts
      have behind := reads.behind
      rw [RequestQueue.Behind, items] at behind
      -- what arrived last is what is being received, however it was told to go on
      rcases List.eq_nil_or_concat (hearAll service.limits (Deed.heardIn deeds)).queue.items with
        none | ⟨earlier, last, arrived⟩
      · rw [none] at behind
        simp at behind
      · rw [List.concat_eq_append] at arrived
        rw [arrived, List.map_append] at behind
        obtain ⟨took, atEnd⟩ := List.append_inj' behind rfl
        refine ⟨earlier, last, arrived, ?_, ?_⟩
        · have same : last.settled.complete = request.settled.complete :=
            congrArg Request.complete (List.cons.inj atEnd).1
          have incomplete : request.complete = false := by
            simp only [Request.isReady, Bool.or_eq_false_iff] at unready
            exact unready.1
          exact same.trans incomplete
        · show (Ledger.of service.serverName deeds).starts = _
          rw [starts, ← took, List.map_map]
          exact List.map_congr_left fun other _ => Start.of_settled other

/-- Something is heard only while the connection reads. -/
theorem heard_inv {received : Received}
    (run : Run service peer (deeds ++ [.heard received]) after) :
    ∃ connection idle, Run service peer deeds connection ∧
      connection.phase = .receiving idle ∧ after = connection.afterReceive service idle received := by
  obtain ⟨connection, before, moved⟩ := run.concat_inv
  by_cases receiving : ∃ idle, connection.phase = .receiving idle
  · obtain ⟨idle, phase⟩ := receiving
    obtain ⟨_, same, rfl⟩ := moves_receiving phase moved
    cases same
    exact ⟨connection, idle, before, phase, rfl⟩
  · exfalso
    cases recorded : connection.isRecorded with
    | true =>
        obtain ⟨quiet, -⟩ := moves_quiet (fun idle phase => receiving ⟨idle, phase⟩) recorded moved
        cases quiet
    | false =>
        cases phase : connection.phase with
        | tellingReadFault fault idle =>
            obtain ⟨same, -⟩ := moves_tellingReadFault phase moved
            cases same
        | _ => simp [isRecorded, phase] at recorded

variable {received : Received}

/-- Between messages the connection leaves at once. -/
theorem lapsed_between (run : Run service peer (before ++ .heard received :: later) connection)
    (nothing : ∀ b rest, received ≠ .data (b :: rest))
    (between : BetweenMessages (Received.stream (Deed.heardIn before))) :
    (∀ deed ∈ later, deed = .other) ∧ ∃ n, connection.stepsLeft? = some n := by
  induction later using List.reverseRecOn generalizing connection with
  | nil =>
      obtain ⟨here, idle, earlier, phase, rfl⟩ := run.heard_inv
      refine ⟨fun _ member => (by cases member), ?_⟩
      have isIdle := (earlier.idle_iff phase).2 between
      subst isIdle
      have none := earlier.idle_empty phase
      cases received with
      | timedOut => exact ⟨2, rfl⟩
      | failed fault =>
          simp only [afterReceive]
          split
          · exact ⟨2, rfl⟩
          · exact ⟨3, rfl⟩
      | data bytes =>
          cases bytes with
          | cons b rest => exact absurd rfl (nothing b rest)
          | nil =>
              refine ⟨2, ?_⟩
              simp only [afterReceive, if_true, look, none]
              rfl
  | append_singleton earlier deed ih =>
      rw [← List.cons_append, ← List.append_assoc] at run
      obtain ⟨here, before, moved⟩ := run.concat_inv
      obtain ⟨quiet, n, left⟩ := ih before
      obtain ⟨rfl, m, -, further⟩ := departs left moved
      refine ⟨fun deed member => ?_, m, further⟩
      rcases List.mem_append.1 member with old | new
      · exact quiet deed old
      · exact List.mem_singleton.1 new

/-- Inside a message the connection refuses it. -/
theorem lapsed_inside (run : Run service peer (before ++ .heard received :: later) connection)
    (nothing : ∀ b rest, received ≠ .data (b :: rest))
    (inside : ¬BetweenMessages (Received.stream (Deed.heardIn before)))
    (sound : ∀ share, .broke share ∉ later) :
    (∀ deed ∈ later, deed = .other ∨ ∃ octets,
        deed = .wrote (.refusal (Intake.lapse received)) octets) ∧
      Refuses service (Intake.lapse received) (Deed.written later) connection := by
  induction later using List.reverseRecOn generalizing connection with
  | nil =>
      obtain ⟨here, idle, earlier, phase, rfl⟩ := run.heard_inv
      refine ⟨fun _ member => (by cases member), ?_⟩
      have notIdle : idle = false :=
        Bool.eq_false_iff.2 fun isIdle => inside ((earlier.idle_iff phase).1 isIdle)
      subst notIdle
      obtain ⟨request, items, unready, -⟩ := earlier.inside_alone phase
      have cut : ∀ status, Refuses service status []
          ((here.closeReading status).look service) := by
        intro status
        obtain ⟨flush, pages⟩ := closeReading_pages items unready service status
        exact .paging flush _ pages (List.nil_append _)
      cases received with
      | timedOut => exact cut _
      | failed fault =>
          simp only [afterReceive]
          split
          · exact cut _
          · exact .telling fault request rfl items unready rfl rfl
      | data bytes =>
          cases bytes with
          | cons b rest => exact absurd rfl (nothing b rest)
          | nil => exact cut _
  | append_singleton earlier deed ih =>
      rw [← List.cons_append, ← List.append_assoc] at run
      obtain ⟨here, before, moved⟩ := run.concat_inv
      obtain ⟨own, refuses⟩ := ih before fun share member => sound share (List.mem_append_left _ member)
      obtain ⟨here, after⟩ := refuses.step moved fun share same =>
        sound share (List.mem_append_right _ (same ▸ List.mem_singleton_self _))
      refine ⟨fun deed member => ?_, ?_⟩
      · rcases List.mem_append.1 member with old | new
        · exact own deed old
        · rw [List.mem_singleton.1 new]
          exact here
      · have told : Deed.written (earlier ++ [deed]) = Deed.written earlier ++ deed.octets := by
          simp [Deed.written]
        rw [told]
        exact after

/-- **Silent exactly between messages.**  A read timed out, found the end of the stream or
failed.  If nothing but line ends came since the connection opened or the last message ended,
the connection closes and does nothing else.  Otherwise, when no write fails, what it writes
from then on is one page, whose first line tells the lapse, or the front of it as long as the
connection is not closed; it closes; and the application is not called any more.  Until then
just those requests were answered that came before the one whose message is incomplete. -/
theorem lapsed (run : Run service peer (before ++ .heard received :: later) connection)
    (nothing : ∀ b rest, received ≠ .data (b :: rest)) :
    (BetweenMessages (Received.stream (Deed.heardIn before)) →
      (∀ deed ∈ later, deed = .other) ∧ connection.Closes service peer) ∧
    (¬BetweenMessages (Received.stream (Deed.heardIn before)) →
      (∀ share, .broke share ∉ later) →
      let page := (Intake.lapse received).errorPage service.serverName
      Bytes.IsPage (Intake.lapseLine received) service.serverName page ∧
        Deed.written later <+: page ∧
        (connection.phase = .closed → Deed.written later = page) ∧
        connection.Closes service peer ∧
        (∀ request, .called request ∉ later) ∧
        ∃ earlier last, (hearAll service.limits (Deed.heardIn before)).queue.items =
            earlier ++ [last] ∧ last.complete = false ∧
          (Ledger.of service.serverName before).answers.map (·.start) =
            earlier.map Start.of) := by
  constructor
  · intro between
    obtain ⟨quiet, n, left⟩ := run.lapsed_between nothing between
    exact ⟨quiet, closes_of_departs left⟩
  · intro inside sound
    obtain ⟨own, refuses⟩ := run.lapsed_inside nothing inside sound
    have isPage := (Intake.lapse received).isPage_errorPage service.serverName
    rw [Intake.lapse_pageLine] at isPage
    refine ⟨isPage, refuses.within, refuses.whole, refuses.closes, fun request member => ?_, ?_⟩
    · rcases own _ member with same | ⟨octets, same⟩ <;> cases same
    · rw [← List.singleton_append, ← List.append_assoc] at run
      obtain ⟨first, heard⟩ := run.front
      obtain ⟨here, idle, earlier, phase, -⟩ := heard.heard_inv
      cases idle with
      | true => exact absurd ((earlier.idle_iff phase).1 rfl) inside
      | false =>
          obtain ⟨request, -, -, alone⟩ := earlier.inside_alone phase
          exact alone

/-- A request is answered; then the head of another one stops short, and nothing more comes in
time: the second one is answered with a page of status 408, and the connection closes. -/
theorem slow_head_refused :
    let session := serve greeting Peer.unix 24 (Session.start
      [.data (Bytes.ofAscii "GET /a HTTP/1.1\r\n\r\n\r\nGET /b HT"), .timedOut])
    ∃ before later, session.deeds = before ++ .heard .timedOut :: later ∧
      ¬BetweenMessages (Received.stream (Deed.heardIn before)) ∧
      Bytes.IsPage "HTTP/1.0 408 Request Timeout" greeting.serverName (Deed.written later) ∧
      session.connection.phase = .closed := by
  intro session
  obtain ⟨heard, sound, ended⟩ : Deed.heardIn session.deeds =
        [.data (Bytes.ofAscii "GET /a HTTP/1.1\r\n\r\n\r\nGET /b HT")] ++ .timedOut :: [] ∧
      (session.deeds.all fun deed => !deed.isBreak) = true ∧
      session.connection.isOver = true := by
    decide +kernel
  obtain ⟨before, later, deeds, heardBefore, -⟩ := Deed.heardIn_split heard
  have run : Run greeting Peer.unix (before ++ .heard .timedOut :: later) session.connection :=
    deeds ▸ serve_run 24 .opened
  have inside : ¬BetweenMessages (Received.stream (Deed.heardIn before)) := by
    rw [heardBefore]
    exact Parser.not_between_of_inside (by decide +kernel)
  have unbroken : ∀ share, .broke share ∉ later := by
    intro share member
    have whole := List.all_eq_true.1 sound (.broke share)
      (by rw [deeds]; exact List.mem_append_right _ (List.mem_cons_of_mem _ member))
    cases whole
  obtain ⟨isPage, -, whole, closes, -⟩ := (lapsed run (by rintro _ _ ⟨⟩)).2 inside unbroken
  have closed := closes.closed_of_over ended
  exact ⟨before, later, deeds, inside, whole closed ▸ isPage, closed⟩

end Run

end Connection

end EmbeddedHttp
