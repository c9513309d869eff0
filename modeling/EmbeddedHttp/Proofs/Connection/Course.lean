/-
# EmbeddedHttp.Proofs.Connection.Course -- the course of one answer

An answer takes its course from where a connection takes a request up to where the answer
ends or the connection leaves (`Connection.Course`).  It is told by the deeds on the way,
from which everything that matters about it can be read: what the task handed over, how
its waits ended, what was written and which writes failed.
-/
import EmbeddedHttp.Proofs.Application.Handing
import EmbeddedHttp.Proofs.Connection.Pipelining

namespace EmbeddedHttp

set_option autoImplicit false

/-! ## What deeds tell -/

namespace Deed

/-- What the task handed over, in order. -/
def handed (deeds : List Deed) : List Emit :=
  deeds.filterMap fun
    | .switched (.yielded emit) => some emit
    | _ => none

/-- How the waits of the task ended, in order. -/
def outcomes (deeds : List Deed) : List WaitOutcome :=
  deeds.filterMap fun
    | .waited outcome => some outcome
    | _ => none

/-- What the writes that failed belong to. -/
def failures (deeds : List Deed) : List Share :=
  deeds.filterMap fun
    | .broke share => some share
    | _ => none

/-- What the socket took of the answer itself. -/
def answered (deeds : List Deed) : Bytes :=
  deeds.flatMap fun
    | .wrote .answer octets | .sent octets => octets
    | _ => []

/-- The task completed. -/
def completes : Deed → Bool
  | .switched .completed => true
  | _ => false

/-- What a deed belongs to, if it is one at the socket. -/
def share? : Deed → Option Share
  | .wrote share _ | .broke share => some share
  | .sent _ => some .answer
  | _ => none

variable (deeds more : List Deed)

@[simp] theorem handed_append : handed (deeds ++ more) = handed deeds ++ handed more :=
  List.filterMap_append

@[simp] theorem outcomes_append : outcomes (deeds ++ more) = outcomes deeds ++ outcomes more :=
  List.filterMap_append

@[simp] theorem failures_append : failures (deeds ++ more) = failures deeds ++ failures more :=
  List.filterMap_append

@[simp] theorem answered_append : answered (deeds ++ more) = answered deeds ++ answered more :=
  List.flatMap_append

@[simp] theorem written_append : written (deeds ++ more) = written deeds ++ written more :=
  List.flatMap_append

end Deed

/-! ## The account of one answer -/

namespace Account

/-- What one answer comes to along some deeds. -/
def along (serverName : String) (request : Request) (deeds : List Deed) : Account :=
  deeds.foldl (·.enter serverName) (opened (.called request) [])

variable (serverName : String) (request : Request) (deeds : List Deed)

theorem along_append (deed : Deed) :
    along serverName request (deeds ++ [deed]) =
      (along serverName request deeds).enter serverName deed := by
  simp [along]

theorem oweHead_notes (account : Account) (request : Request) (emit : Emit) (date : Bytes) :
    (account.oweHead serverName request emit date).timedOut = account.timedOut ∧
      (account.oweHead serverName request emit date).broken = account.broken := by
  rw [oweHead]
  split
  · exact ⟨rfl, rfl⟩
  · cases emit with
    | head head first length => cases first <;> exact ⟨rfl, rfl⟩
    | _ => exact ⟨rfl, rfl⟩

theorem complete_notes (account : Account) :
    account.complete.ending = .completed ∧ account.complete.progress = account.progress ∧
      account.complete.timedOut = account.timedOut ∧
      account.complete.broken = account.broken := by
  rw [complete]
  split <;> exact ⟨rfl, rfl, rfl, rfl⟩

theorem fail_notes (account : Account) :
    (account.fail serverName).ending = .failed ∧
      (account.fail serverName).octets = account.octets ∧
      (account.fail serverName).timedOut = account.timedOut ∧
      (account.fail serverName).broken = account.broken := by
  simp only [fail]
  split <;> exact ⟨rfl, rfl, rfl, rfl⟩

/-- A deed tells of one wait or one write at most. -/
theorem enter_notes (account : Account) (deed : Deed) :
    (account.enter serverName deed).timedOut =
        (account.timedOut || (Deed.outcomes [deed]).any (·.timedOut)) ∧
      (account.enter serverName deed).broken =
        (account.broken || (Deed.failures [deed]).contains .answer) := by
  have same : account.timedOut = (account.timedOut || false) ∧
      account.broken = (account.broken || false) :=
    ⟨(Bool.or_false _).symm, (Bool.or_false _).symm⟩
  cases deed with
  | waited outcome => exact ⟨by simp [enter, Deed.outcomes], same.2⟩
  | broke share =>
      cases share with
      | answer => exact ⟨same.1, by simp [enter, Deed.failures]⟩
      | _ => exact same
  | dated date =>
      simp only [enter]
      split
      · obtain ⟨timedOut, broken⟩ := oweHead_notes serverName account _ _ date
        rw [timedOut, broken]
        exact same
      · exact same
  | switched step =>
      cases step with
      | suspended wait => exact same
      | yielded emit => cases emit <;> exact same
      | completed =>
          obtain ⟨-, -, timedOut, broken⟩ := complete_notes account
          exact ⟨timedOut.trans same.1, broken.trans same.2⟩
      | failed error =>
          obtain ⟨-, -, timedOut, broken⟩ := fail_notes serverName account
          exact ⟨timedOut.trans same.1, broken.trans same.2⟩
  | _ => exact same

theorem along_start : (along serverName request deeds).start = .called request := by
  induction deeds using List.reverseRecOn with
  | nil => rfl
  | append_singleton deeds deed ih => rw [along_append, (enter_other _ _ deed).1, ih]

theorem along_octets : (along serverName request deeds).octets = Deed.written deeds := by
  induction deeds using List.reverseRecOn with
  | nil => rfl
  | append_singleton deeds deed ih =>
      rw [along_append, (enter_other _ _ deed).2.2, ih, Deed.written_append]
      simp [Deed.written]

theorem along_timedOut : (along serverName request deeds).timedOut =
    (Deed.outcomes deeds).any (·.timedOut) := by
  induction deeds using List.reverseRecOn with
  | nil => rfl
  | append_singleton deeds deed ih =>
      rw [along_append, (enter_notes _ _ deed).1, ih, Deed.outcomes_append, List.any_append]

theorem along_broken : (along serverName request deeds).broken =
    (Deed.failures deeds).contains .answer := by
  induction deeds using List.reverseRecOn with
  | nil => rfl
  | append_singleton deeds deed ih =>
      rw [along_append, (enter_notes _ _ deed).2, ih, Deed.failures_append,
        List.contains_eq_mem, List.contains_eq_mem, List.contains_eq_mem]
      simp

end Account

/-! ## Courses -/

variable {Call : Type} {Answer : Call → Type}

namespace Phase

/-- An answer is given to a request by its task, or a page in place of it. -/
def isOfTask : Phase Call Answer → Bool
  | .switching _ _ | .waiting _ _ | .corking _ _ | .dating _ _ | .sendingFile _ _
  | .uncorking _ | .tellingAccess _ | .tellingFailure _ _ => true
  | .writing _ (.piece _ _) | .writing _ (.fileHead _ _) | .writing _ (.lastChunk _)
  | .writing _ (.errorPage _ (some _)) => true
  | _ => false

/-- The page in place of an answer is written. -/
def isApology : Phase Call Answer → Bool
  | .writing _ (.errorPage _ (some _)) => true
  | _ => false

variable {phase : Phase Call Answer}

end Phase

namespace Connection

/-- The steps from some connection on, none of which comes behind the end of an answer. -/
inductive Course (service : Service Call Answer) (peer : Peer) (first : Connection Call Answer) :
    List Deed → Connection Call Answer → Prop where
  | begun : Course service peer first [] first
  | step {deeds : List Deed} {here after : Connection Call Answer} {deed : Deed}
      (before : Course service peer first deeds here)
      (inside : here.endsAnswer service = false)
      (moved : here.Moves service peer deed after) :
      Course service peer first (deeds ++ [deed]) after

variable {service : Service Call Answer} {peer : Peer} {connection after : Connection Call Answer}
  {deed : Deed}

/-- Looking at the queue goes on with no answer that was begun. -/
theorem look_begins (service : Service Call Answer) (connection : Connection Call Answer) :
    (connection.look service).phase.isOfTask = false := by
  rw [look]
  split
  · split <;> rfl
  · split
    · rw [dispatch]
      split
      · rfl
      · split <;> rfl
    · split
      · rfl
      · split <;> rfl

/-- At the socket a connection does what its phase is about. -/
theorem moves_share (moved : connection.Moves service peer deed after) {share : Share}
    (told : deed.share? = some share) : share = connection.share := by
  cases phase : connection.phase with
  | writing flush purpose =>
      have here : connection.share = purpose.share := by rw [Connection.share, phase]
      rw [here]
      rcases moves_writing phase moved with
        ⟨later, octets, ⟨rfl, -⟩ | ⟨rfl, -⟩, -, -, -⟩ | ⟨fault, rfl, -⟩
      · exact (Option.some.inj told).symm
      · cases told
      · exact (Option.some.inj told).symm
  | sendingFile exchange transfer =>
      have here : connection.share = .answer := by rw [Connection.share, phase]
      rw [here]
      rcases moves_sendingFile phase moved with
        ⟨n, rfl, -⟩ | ⟨rfl, -⟩ | ⟨blocked, rfl, -⟩ | ⟨rfl, -⟩
      · exact (Option.some.inj told).symm
      · cases told
      · cases told
      · exact (Option.some.inj told).symm
  | _ =>
      simp only [Moves, next, phase] at moved
      cases moved <;> cases told

/-- A task says something only when it was given control. -/
theorem moves_switched {step : Step Emit}
    (moved : connection.Moves service peer (.switched step) after) :
    ∃ exchange resume, connection.phase = .switching exchange resume := by
  cases phase : connection.phase with
  | switching exchange resume => exact ⟨exchange, resume, rfl⟩
  | writing flush purpose =>
      rcases moves_writing phase moved with
        ⟨later, octets, ⟨same, -⟩ | ⟨same, -⟩, -, -, -⟩ | ⟨fault, same, -⟩ <;> cases same
  | sendingFile exchange transfer =>
      rcases moves_sendingFile phase moved with
        ⟨n, same, -⟩ | ⟨same, -⟩ | ⟨blocked, same, -⟩ | ⟨same, -⟩ <;> cases same
  | _ =>
      simp only [Moves, next, phase] at moved
      cases moved

/-- Only a task that is asked for can fail to be made. -/
theorem moves_unstarted {request : Request}
    (moved : connection.Moves service peer (.unstarted request) after) :
    connection.phase = .spawning request := by
  rw [Moves] at moved
  generalize connection.next service peer = action at moved
  cases moved with
  | unstarted phase fault => exact phase

/-- At most so many steps of one answer against an obliging outside. -/
def serveAnswer (service : Service NoCall NoAnswer) (peer : Peer) : Nat → Session → Session
  | 0, session => session
  | steps + 1, session =>
      if session.connection.endsAnswer service then session
      else
        match oblige service peer session with
        | none => session
        | some after => serveAnswer service peer steps after

/-- They are the course of it. -/
theorem serveAnswer_course {service : Service NoCall NoAnswer} {peer : Peer}
    {first : Connection NoCall NoAnswer} (steps : Nat) {session : Session}
    (course : Course service peer first session.deeds session.connection) :
    Course service peer first (serveAnswer service peer steps session).deeds
      (serveAnswer service peer steps session).connection := by
  induction steps generalizing session with
  | zero => exact course
  | succ steps ih =>
      rw [serveAnswer]
      split
      · exact course
      · rename_i inside
        split
        · exact course
        · rename_i after obliged
          obtain ⟨deed, told, moved⟩ := oblige_moves obliged
          exact ih (by rw [told]; exact .step course (Bool.eq_false_iff.2 inside) moved)

/-- A request whose client would have the connection kept. -/
def plainRequest : Request :=
  { Request.new with target := "/", path := "/", keepAlive := true, complete := true }

/-- What a service came to after some steps of answering the request. -/
def answering (service : Service NoCall NoAnswer) (steps : Nat) : Session :=
  serveAnswer service Peer.unix steps ⟨[], opened.dispatch service plainRequest ⟨[]⟩, []⟩

theorem answering_course (service : Service NoCall NoAnswer) (steps : Nat) :
    Course service Peer.unix (opened.dispatch service plainRequest ⟨[]⟩)
      (answering service steps).deeds (answering service steps).connection :=
  serveAnswer_course steps .begun

end Connection

end EmbeddedHttp
