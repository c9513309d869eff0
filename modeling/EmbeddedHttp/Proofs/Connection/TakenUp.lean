/-
# EmbeddedHttp.Proofs.Connection.TakenUp -- a request that is taken up

A request that carries no error is answered by a task, behind an interim answer if it
waits for one (`Connection.Course.takenUp`).  What is done at the socket along the way is
done for the interim answer first, and then for the answer, until a page is written in
place of it or the connection leaves.  The page is all there is when no task could be made.
-/
import EmbeddedHttp.Proofs.Connection.Orderly

namespace EmbeddedHttp

set_option autoImplicit false

variable {Call : Type} {Answer : Call → Type} {service : Service Call Answer} {peer : Peer}
  {connection here after : Connection Call Answer} {request : Request} {deeds : List Deed}
  {deed : Deed} {queue : RequestQueue}

/-! ## What belongs to the answer -/

/-- The page in place of an answer is being written, or the connection is on its way out. -/
def Phase.isClosing (phase : Phase Call Answer) : Bool := phase.isApology || phase.isLast

namespace Connection

theorem share_of_isOfTask (isTask : here.phase.isOfTask = true)
    (goesOn : here.phase.isApology = false) : here.share = .answer := by
  rw [Connection.share]
  split
  · rename_i flush purpose phase
    rw [phase] at isTask goesOn
    cases purpose with
    | errorPage status facts =>
        cases facts with
        | none => cases isTask
        | some facts => cases goesOn
    | interimWhileReading | interimBefore _ => cases isTask
    | _ => rfl
  · rfl

/-- A connection that is closing stays so. -/
theorem moves_closing (closing : here.phase.isClosing = true)
    (moved : here.Moves service peer deed after) : after.phase.isClosing = true := by
  rw [Phase.isClosing, Bool.or_eq_true] at closing ⊢
  rcases closing with apology | last
  · cases phase : here.phase with
    | writing flush purpose =>
        rw [phase] at apology
        cases purpose with
        | errorPage status facts =>
            cases facts with
            | none => cases apology
            | some facts =>
                rcases moves_writing phase moved with
                  ⟨later, octets, -, -, -, rfl⟩ | ⟨fault, -, rfl⟩
                · split
                  · exact .inr rfl
                  · exact .inl rfl
                · exact .inr rfl
        | _ => cases apology
    | _ =>
        rw [phase] at apology
        cases apology
  · exact .inr (moves_last last moved).2

/-- Until the connection is closing, all that a task's answer does at the socket belongs to
the answer. -/
theorem Course.shares {id : TaskId} {task : Task Emit Call Answer}
    (course : Course service peer (connection.begin request id task) deeds here) :
    here.phase.isClosing = true ∨
      ∀ deed ∈ deeds, ∀ share, deed.share? = some share → share = .answer := by
  induction course with
  | begun => exact .inr fun deed member => by cases member
  | @step deeds here after deed before inside moved ih =>
      cases closing : here.phase.isClosing with
      | true => exact .inl (moves_closing closing moved)
      | false =>
          have earlier := ih.resolve_left (by rw [closing]; decide)
          rw [Phase.isClosing, Bool.or_eq_false_iff] at closing
          refine .inr fun each member share told => ?_
          rcases List.mem_append.1 member with inside | last
          · exact earlier each inside share told
          · rw [List.mem_singleton.1 last] at told
            have isTask := before.tallies.carries.isOfTask.resolve_right
              (by rw [closing.2]; decide)
            rw [moves_share moved told]
            exact share_of_isOfTask isTask closing.1

/-- So a write that failed is known to the account, and what was written is the answer. -/
theorem Course.ofAnswer {id : TaskId} {task : Task Emit Call Answer}
    (course : Course service peer (connection.begin request id task) deeds here)
    (goesOn : here.phase.isClosing = false) :
    (Deed.failures deeds = [] ↔
        (Account.along service.serverName request deeds).broken = false) ∧
      Deed.answered deeds = Deed.written deeds := by
  have shares := course.shares.resolve_left (by rw [goesOn]; decide)
  rw [Account.along_broken]
  clear course
  induction deeds using List.reverseRecOn with
  | nil => simp [Deed.failures, Deed.answered, Deed.written]
  | append_singleton deeds deed ih =>
      obtain ⟨failures, answered⟩ := ih fun each member =>
        shares each (List.mem_append_left _ member)
      have here := shares deed (List.mem_append_right _ (List.mem_singleton.2 rfl))
      rw [Deed.failures_append, Deed.answered_append, Deed.written_append, answered]
      have alike : (Deed.failures [deed] = [] ∨ Deed.failures [deed] = [.answer]) ∧
          Deed.answered [deed] = Deed.written [deed] := by
        cases deed with
        | wrote share octets =>
            obtain rfl := here share rfl
            exact ⟨.inl rfl, rfl⟩
        | broke share =>
            obtain rfl := here share rfl
            exact ⟨.inr rfl, rfl⟩
        | _ => exact ⟨.inl rfl, rfl⟩
      refine ⟨?_, by rw [alike.2]⟩
      rcases alike.1 with none | one
      · rw [none, List.append_nil]
        exact failures
      · rw [one]
        simp

/-! ## In front of the answer -/

end Connection

/-- The interim answer that a request waits for. -/
def Request.promised (request : Request) : Bytes :=
  if request.expectContinue then Bytes.ofAscii "HTTP/1.1 100 Continue\r\n\r\n" else []

/-- A deed in front of an answer. -/
def Deed.isPreamble : Deed → Bool
  | .other | .wrote .interim _ | .broke .interim => true
  | _ => false

/-- A deed in front of an answer, or in place of one whose task could not be made. -/
def Deed.isAside : Deed → Bool
  | .unstarted _ | .wrote .apology _ | .broke .apology => true
  | deed => deed.isPreamble

namespace Deed

/-- What holds of all deeds and of one more holds of them together. -/
theorem forall_concat {holds : Deed → Bool} {deeds : List Deed} {deed : Deed}
    (all : ∀ each ∈ deeds, holds each = true) (last : holds deed = true) :
    ∀ each ∈ deeds ++ [deed], holds each = true :=
  List.forall_mem_append.2 ⟨all, List.forall_mem_singleton.2 last⟩

theorem written_concat (deeds : List Deed) (deed : Deed) :
    written (deeds ++ [deed]) = written deeds ++ deed.octets := by
  simp [written]

/-- What a turn at an outbox writes. -/
theorem octets_turn {deed : Deed} {share : Share} {octets : Bytes}
    (turn : deed = .wrote share octets ∧ octets ≠ [] ∨ deed = .other ∧ octets = []) :
    deed.octets = octets := by
  rcases turn with ⟨rfl, -⟩ | ⟨rfl, rfl⟩ <;> rfl

theorem isAside_of_isPreamble {deed : Deed} (preamble : deed.isPreamble = true) :
    deed.isAside = true := by
  unfold isAside
  split
  · rfl
  · rfl
  · rfl
  · exact preamble

/-- What comes in front of an answer, or in place of it, tells nothing of a task. -/
theorem aside_quiet {deeds : List Deed} (aside : ∀ deed ∈ deeds, deed.isAside = true) :
    handed deeds = [] ∧ outcomes deeds = [] ∧ answered deeds = [] ∧
      deeds.any (·.completes) = false := by
  induction deeds with
  | nil => exact ⟨rfl, rfl, rfl, rfl⟩
  | cons deed rest ih =>
      obtain ⟨handed', outcomes', answered', completes⟩ := ih fun each member =>
        aside each (List.mem_cons_of_mem _ member)
      have here := aside deed List.mem_cons_self
      have split : deed :: rest = [deed] ++ rest := rfl
      rw [split, handed_append, outcomes_append, answered_append, List.any_append, handed',
        outcomes', answered', completes]
      cases deed with
      | other | unstarted _ => exact ⟨rfl, rfl, rfl, rfl⟩
      | wrote share octets =>
          cases share with
          | interim | apology => exact ⟨rfl, rfl, rfl, rfl⟩
          | _ => cases here
      | broke share =>
          cases share with
          | interim | apology => exact ⟨rfl, rfl, rfl, rfl⟩
          | _ => cases here
      | _ => cases here

theorem preamble_quiet {deeds : List Deed} (preamble : ∀ deed ∈ deeds, deed.isPreamble = true) :
    handed deeds = [] ∧ outcomes deeds = [] ∧ answered deeds = [] ∧
      deeds.any (·.completes) = false :=
  aside_quiet fun deed member => isAside_of_isPreamble (preamble deed member)

/-- So they are told by what comes behind it. -/
theorem behind_preamble {before later : List Deed} {same : Request}
    (preamble : ∀ deed ∈ before, deed.isPreamble = true) :
    handed (before ++ .called same :: later) = handed later ∧
      outcomes (before ++ .called same :: later) = outcomes later ∧
      answered (before ++ .called same :: later) = answered later ∧
      (before ++ .called same :: later).any (·.completes) = later.any (·.completes) := by
  obtain ⟨handed', outcomes', answered', completes⟩ := preamble_quiet preamble
  rw [handed_append, outcomes_append, answered_append, List.any_append, handed', outcomes',
    answered', completes]
  exact ⟨rfl, rfl, rfl, rfl⟩

end Deed

namespace Connection

/-- A task answers the request, behind the interim answer that it waits for. -/
inductive AnsweredByTask (service : Service Call Answer) (peer : Peer) (request : Request)
    (deeds : List Deed) (here : Connection Call Answer) : Prop where
  | intro (same : Request) (like : same = request ∨ same = request.settled)
      (before later : List Deed) (told : deeds = before ++ .called same :: later)
      (whole : Deed.written before = request.promised)
      (unbroken : Deed.failures before = [])
      (preamble : ∀ deed ∈ before, deed.isPreamble = true)
      (begun : Connection Call Answer) (id : TaskId)
      (course : Course service peer (begun.begin same id (.fresh (service.application.respond
        (Environ.ofRequest same ⟨peer, service.serverName, service.serverPort⟩)))) later here)

/-- No task could be made for the request, and a page is written in place of the answer,
behind the interim answer that the request waits for. -/
inductive Unstarted (service : Service Call Answer) (request : Request) (deeds : List Deed)
    (here : Connection Call Answer) : Prop where
  | telling (facts : Facts) (fault : IoFault) (phase : here.phase = .tellingUnstarted facts fault)
      (same : Request) (before : List Deed) (told : deeds = before ++ [.unstarted same])
      (whole : Deed.written before = request.promised)
      (unbroken : Deed.failures before = [])
      (aside : ∀ deed ∈ deeds, deed.isAside = true)
  | paging (flush : Flush) (facts : Facts)
      (phase : here.phase = .writing flush (.errorPage .internalServerError (some facts)))
      (whole : Deed.written deeds ++ flush.outbox.pending.flatten =
        request.promised ++ Status.internalServerError.errorPage service.serverName)
      (aside : ∀ deed ∈ deeds, deed.isAside = true)
  | ended (last : here.phase.isLast = true)
      (within : Deed.written deeds <+:
        request.promised ++ Status.internalServerError.errorPage service.serverName)
      (aside : ∀ deed ∈ deeds, deed.isAside = true)

namespace Unstarted

/-- Nothing is told of a task. -/
theorem aside (unstarted : Unstarted service request deeds here) :
    ∀ deed ∈ deeds, deed.isAside = true := by
  cases unstarted with
  | telling _ _ _ _ _ _ _ _ aside => exact aside
  | paging _ _ _ _ aside => exact aside
  | ended _ _ aside => exact aside

/-- What is written is the front of the interim answer with the page behind it. -/
theorem within (unstarted : Unstarted service request deeds here) :
    Deed.written deeds <+:
      request.promised ++ Status.internalServerError.errorPage service.serverName := by
  cases unstarted with
  | telling facts fault phase same before told whole =>
      rw [told, Deed.written_append, whole]
      exact (List.prefix_append_right_inj _).2 List.nil_prefix
  | paging flush facts phase whole => exact ⟨_, whole⟩
  | ended last within => exact within

/-- Every step leads on to the end of the page. -/
theorem step (unstarted : Unstarted service request deeds here)
    (moved : here.Moves service peer deed after) :
    Unstarted service request (deeds ++ [deed]) after := by
  cases unstarted with
  | telling facts fault phase same before told whole unbroken aside =>
      obtain ⟨rfl, rfl⟩ := moves_tellingUnstarted phase moved
      have page := Outbox.push_pending (Status.internalServerError.errorPage service.serverName)
      refine .paging _ facts rfl ?_ (Deed.forall_concat aside rfl)
      rw [told, Deed.written_concat, Deed.written_concat, whole]
      simp [Deed.octets, Flush.start, page]
  | paging flush facts phase whole aside =>
      rcases moves_writing phase moved with
        ⟨later, octets, turn, more, -, rfl⟩ | ⟨fault, rfl, rfl⟩
      · have isAside : deed.isAside = true := by rcases turn with ⟨rfl, -⟩ | ⟨rfl, -⟩ <;> rfl
        have further := Deed.forall_concat aside isAside
        rw [← more, ← List.append_assoc, ← Deed.octets_turn turn, ← Deed.written_concat] at whole
        split
        · exact .ended rfl ⟨_, whole⟩ further
        · exact .paging later facts rfl whole further
      · refine .ended rfl ⟨flush.outbox.pending.flatten, ?_⟩ (Deed.forall_concat aside rfl)
        simpa only [Deed.written_concat, Deed.octets, List.append_nil] using whole
  | ended last within aside =>
      obtain ⟨rfl, last⟩ := moves_last last moved
      refine .ended last ?_ (Deed.forall_concat aside rfl)
      simpa only [Deed.written_concat, Deed.octets, List.append_nil] using within

end Unstarted

/-- What a request that was taken up has come to. -/
inductive TakenUp (service : Service Call Answer) (peer : Peer) (request : Request)
    (deeds : List Deed) (here : Connection Call Answer) : Prop where
  /-- The interim answer is on its way. -/
  | announced (flush : Flush)
      (phase : here.phase = .writing flush (.interimBefore request.settled))
      (whole : Deed.written deeds ++ flush.outbox.pending.flatten = request.promised)
      (unbroken : Deed.failures deeds = [])
      (preamble : ∀ deed ∈ deeds, deed.isPreamble = true)
  /-- The application is about to be called. -/
  | spawning (same : Request) (like : same = request ∨ same = request.settled)
      (phase : here.phase = .spawning same)
      (whole : Deed.written deeds = request.promised)
      (unbroken : Deed.failures deeds = [])
      (preamble : ∀ deed ∈ deeds, deed.isPreamble = true)
  | answering (byTask : AnsweredByTask service peer request deeds here)
  | unstarted (noTask : Unstarted service request deeds here)
  /-- The interim answer could not be written. -/
  | left (last : here.phase.isLast = true) (within : Deed.written deeds <+: request.promised)
      (preamble : ∀ deed ∈ deeds, deed.isPreamble = true)

namespace TakenUp

/-- Taking the request up. -/
theorem dispatched (service : Service Call Answer) (peer : Peer)
    (connection : Connection Call Answer) (queue : RequestQueue)
    (harmless : request.failure = none) :
    TakenUp service peer request [] (connection.dispatch service request queue) := by
  by_cases waits : request.expectContinue = true
  · rw [dispatch_waits harmless waits]
    refine .announced _ rfl ?_ rfl fun deed member => by cases member
    rw [Request.promised, if_pos waits]
    exact Outbox.push_pending Status.interim
  · rw [dispatch_calls harmless (Bool.eq_false_iff.2 waits)]
    refine .spawning request (.inl rfl) rfl ?_ rfl fun deed member => by cases member
    rw [Request.promised, if_neg waits]
    rfl

/-- Every step leads on. -/
theorem step (takenUp : TakenUp service peer request deeds here)
    (inside : here.endsAnswer service = false) (moved : here.Moves service peer deed after) :
    TakenUp service peer request (deeds ++ [deed]) after := by
  cases takenUp with
  | announced flush phase whole unbroken preamble =>
      rcases moves_writing phase moved with
        ⟨later, octets, turn, more, -, rfl⟩ | ⟨fault, rfl, rfl⟩
      · have quiet : Deed.failures (deeds ++ [deed]) = [] ∧ deed.isPreamble = true := by
          rw [Deed.failures_append, unbroken]
          rcases turn with ⟨rfl, -⟩ | ⟨rfl, -⟩ <;> exact ⟨rfl, rfl⟩
        obtain ⟨noFailure, isPreamble⟩ := quiet
        have further := Deed.forall_concat preamble isPreamble
        rw [← more, ← List.append_assoc, ← Deed.octets_turn turn, ← Deed.written_concat] at whole
        split
        · rename_i done
          rw [(Outbox.isDrained_iff _).1 done, List.append_nil] at whole
          exact .spawning request.settled (.inr rfl) rfl whole noFailure further
        · exact .announced later rfl whole noFailure further
      · refine .left rfl ⟨flush.outbox.pending.flatten, ?_⟩ (Deed.forall_concat preamble rfl)
        simpa only [Deed.written_concat, Deed.octets, List.append_nil] using whole
  | spawning same like phase whole unbroken preamble =>
      rcases moves_spawning phase moved with ⟨rfl, id, rfl⟩ | ⟨rfl, fault, rfl⟩
      · exact .answering
          ⟨same, like, deeds, [], rfl, whole, unbroken, preamble, here, id, .begun⟩
      · have aside := Deed.forall_concat
          (fun deed member => Deed.isAside_of_isPreamble (preamble deed member))
          (show (Deed.unstarted same).isAside = true from rfl)
        exact .unstarted (.telling _ fault rfl same deeds rfl whole unbroken aside)
  | unstarted noTask => exact .unstarted (noTask.step moved)
  | answering byTask =>
      obtain ⟨same, like, before, later, rfl, whole, unbroken, preamble, begun, id, course⟩ :=
        byTask
      refine .answering ⟨same, like, before, later ++ [deed], ?_, whole, unbroken, preamble, begun,
        id, .step course inside moved⟩
      rw [List.append_assoc]
      rfl
  | left last within preamble =>
      obtain ⟨rfl, last⟩ := moves_last last moved
      refine .left last ?_ (Deed.forall_concat preamble rfl)
      simpa only [Deed.written_concat, Deed.octets, List.append_nil] using within

end TakenUp

/-- **A request that carries no error is answered by a task**, behind the interim answer that
it waits for, unless that cannot be written or no task can be made. -/
theorem Course.takenUp (harmless : request.failure = none)
    (course : Course service peer (connection.dispatch service request queue) deeds here) :
    TakenUp service peer request deeds here := by
  induction course with
  | begun => exact .dispatched service peer connection queue harmless
  | step before inside moved ih => exact ih.step inside moved

theorem isClosing_of_endsAnswer (ends : here.endsAnswer service = true) :
    here.phase.isClosing = false := by
  rw [endsAnswer] at ends
  split at ends
  · rename_i phase
    rw [phase]
    rfl
  · rename_i phase
    rw [phase]
    rfl
  · cases ends

theorem isOfTask_of_endsAnswer (ends : here.endsAnswer service = true) :
    here.phase.isOfTask = true := by
  rw [endsAnswer] at ends
  split at ends
  · rename_i phase
    rw [phase]
    rfl
  · rename_i phase
    rw [phase]
    rfl
  · cases ends

/-- Where a task is answering, it answers the request that was taken up. -/
theorem TakenUp.byTask (takenUp : TakenUp service peer request deeds here)
    (isTask : here.phase.isOfTask = true) (goesOn : here.phase.isClosing = false) :
    AnsweredByTask service peer request deeds here := by
  rw [Phase.isClosing, Bool.or_eq_false_iff] at goesOn
  cases takenUp with
  | answering byTask => exact byTask
  | unstarted noTask =>
      cases noTask with
      | telling facts fault phase =>
          rw [phase] at isTask
          cases isTask
      | paging flush facts phase =>
          rw [phase] at goesOn
          cases goesOn.1
      | ended last =>
          rw [last] at goesOn
          cases goesOn.2
  | announced flush phase whole unbroken preamble =>
      rw [phase] at isTask
      cases isTask
  | spawning same like phase whole unbroken preamble =>
      rw [phase] at isTask
      cases isTask
  | left last within preamble =>
      rw [last] at goesOn
      cases goesOn.2

end Connection

end EmbeddedHttp
