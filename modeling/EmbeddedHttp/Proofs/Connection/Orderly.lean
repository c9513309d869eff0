/-
# EmbeddedHttp.Proofs.Connection.Orderly -- a task is given control in order

A connection gives a task control until it is over, and gives it up only behind a write
that failed.  So along the course of an answer a task that hands its answer over in order
does so, as long as none of its waits gives it up (`Connection.Course.onCourse`).
-/
import EmbeddedHttp.Proofs.Connection.Carrying

namespace EmbeddedHttp

set_option autoImplicit false

open Deed (handed)

variable {Call : Type} {Answer : Call → Type} {service : Service Call Answer} {peer : Peer}
  {connection here after : Connection Call Answer} {request : Request} {account : Account}
  {deeds : List Deed} {deed : Deed} {stage : Stage}

/-- Only what a task says ends it. -/
theorem Account.enter_ending (account : Account) (serverName : String)
    (quiet : ∀ step, deed ≠ .switched step) :
    (account.enter serverName deed).ending = account.ending := by
  cases deed with
  | switched step => exact absurd rfl (quiet step)
  | broke share => cases share <;> rfl
  | dated date =>
      simp only [enter]
      split
      · rw [oweHead]
        split
        · rfl
        · split <;> rfl
      · rfl
  | _ => rfl

/-- The task in hand goes on in order from a stage, unless it is given up. -/
def Phase.Obeys (stage : Stage) : Phase Call Answer → Prop
  | .switching exchange resume =>
      exchange.broken = false → Task.cancels resume = false ∧ exchange.task.Orderly stage
  | .waiting exchange _ | .corking exchange _ | .dating exchange _ | .sendingFile exchange _
  | .writing _ (.piece exchange _) | .writing _ (.fileHead exchange _) =>
      exchange.task.Orderly stage
  | _ => True

theorem Phase.obeys_last {phase : Phase Call Answer} (last : phase.isLast = true) :
    phase.Obeys stage := by
  cases phase with
  | uncorkingPage _ _ _ | tellingPage _ | leaving | hurrying | closed | broken _
  | overflowed => trivial
  | _ => cases last

/-- All that was handed over came in order, and each head of it was built; the task in hand
goes on from there, and a task that completed has handed something over unless a write
failed. -/
structure OnCourse (account : Account) (deeds : List Deed) (phase : Phase Call Answer)
    (stage : Stage) : Prop where
  inOrder : Stage.of (handed deeds) = some stage
  built : ∀ emit ∈ handed deeds, emit.Built
  obeys : phase.Obeys stage
  begun : account.ending = .completed → account.broken = false → stage ≠ .start

namespace Connection

theorem reply_goesOn (flow : Flow) : Task.cancels (reply flow) = false := by
  cases flow <;> rfl

theorem obeys_flush {flush later : Flush} {purpose : Purpose Call Answer}
    (obeys : Phase.Obeys stage (.writing flush purpose)) :
    Phase.Obeys stage (.writing later purpose) := by
  cases purpose with
  | piece _ _ | fileHead _ _ => exact obeys
  | _ => trivial

theorem obeys_dating {exchange : Exchange Call Answer} {emit : Emit}
    (phase : here.phase = .dating exchange emit) (orderly : exchange.task.Orderly stage)
    (moved : here.Moves service peer deed after) : after.phase.Obeys stage := by
  obtain ⟨date, rfl, rfl⟩ := moves_dating phase moved
  cases emit with
  | head head first length => cases first <;> exact orderly
  | file head body => exact orderly
  | chunk data =>
      simp only [writeHead, headOf, takeEmit, drain]
      split
      · exact fun _ => ⟨reply_goesOn _, orderly⟩
      · exact orderly

theorem obeys_sendingFile {exchange : Exchange Call Answer} {transfer : Transfer}
    (phase : here.phase = .sendingFile exchange transfer) (orderly : exchange.task.Orderly stage)
    (moved : here.Moves service peer deed after) : after.phase.Obeys stage := by
  have sent : ∀ n, (here.afterFile exchange n).phase.Obeys stage :=
    fun n _ => ⟨reply_goesOn _, orderly⟩
  rcases moves_sendingFile phase moved with
    ⟨n, rfl, -, -, -, rfl⟩ | ⟨rfl, rfl⟩ | ⟨blocked, rfl, rfl⟩ | ⟨rfl, rfl⟩
  · dsimp only
    split
    · exact sent _
    · exact orderly
  · exact sent _
  · split
    · exact sent _
    · exact orderly
  · intro unbroken
    cases unbroken

/-- Behind an outbox the task is answered, or given up for a write that failed. -/
theorem obeys_afterWriting {flush : Flush} {purpose : Purpose Call Answer}
    (obeys : Phase.Obeys stage (.writing flush purpose))
    (isTask : Phase.isOfTask (.writing flush purpose) = true) (sent : Nat)
    (fault : Option IoFault) :
    (here.afterWriting service sent purpose fault).phase.Obeys stage := by
  cases purpose with
  | interimWhileReading | interimBefore _ => cases isTask
  | piece exchange flow =>
      cases fault with
      | none => exact fun _ => ⟨reply_goesOn _, obeys⟩
      | some fault => exact fun unbroken => by cases unbroken
  | fileHead exchange body =>
      cases fault with
      | none =>
          simp only [afterWriting, sendFile]
          split
          · exact fun _ => ⟨reply_goesOn _, obeys⟩
          · exact obeys
      | some fault => exact fun unbroken => by cases unbroken
  | lastChunk exchange => cases fault <;> trivial
  | errorPage status facts => cases fault <;> trivial

/-- Steps at which the task says nothing. -/
theorem obeys_quiet (obeys : here.phase.Obeys stage) (isTask : here.phase.isOfTask = true)
    (inside : here.endsAnswer service = false) (moved : here.Moves service peer deed after)
    (quiet : ∀ step, deed ≠ .switched step)
    (waits : ∀ outcome, deed = .waited outcome → Task.cancels outcome.resume = false) :
    after.phase.Obeys stage := by
  cases phase : here.phase with
  | switching exchange resume =>
      obtain ⟨σ, host, before, later, step, task, -, rfl, -⟩ := moves_switching phase moved
      exact absurd rfl (quiet step)
  | waiting exchange wait =>
      rw [phase] at obeys
      obtain ⟨outcome, rfl, rfl⟩ := moves_waiting phase moved
      exact fun _ => ⟨waits outcome rfl, obeys⟩
  | corking exchange emit =>
      rw [phase] at obeys
      obtain ⟨rfl, rfl⟩ := moves_corking phase moved
      exact obeys
  | dating exchange emit =>
      rw [phase] at obeys
      exact obeys_dating phase obeys moved
  | sendingFile exchange transfer =>
      rw [phase] at obeys
      exact obeys_sendingFile phase obeys moved
  | uncorking exchange =>
      obtain ⟨rfl, rfl⟩ := moves_uncorking phase moved
      have logged : service.accessLog = true := by simpa [endsAnswer, phase] using inside
      rw [if_pos logged]
      trivial
  | tellingAccess exchange => simp [endsAnswer, phase] at inside
  | tellingFailure exchange error =>
      obtain ⟨rfl, rfl⟩ := moves_tellingFailure phase moved
      simp only [afterFailure]
      split <;> trivial
  | writing flush purpose =>
      rw [phase] at obeys isTask
      rcases moves_writing phase moved with
        ⟨later, octets, -, -, -, rfl⟩ | ⟨fault, -, rfl⟩
      · split
        · exact obeys_afterWriting obeys isTask _ _
        · exact obeys_flush obeys
      · exact obeys_afterWriting obeys isTask _ _
  | _ =>
      rw [phase] at isTask
      cases isTask

/-- What the task says comes in order. -/
theorem onCourse_switching {exchange : Exchange Call Answer} {resume : Resume}
    (phase : here.phase = .switching exchange resume)
    (onCourse : OnCourse account deeds here.phase stage)
    (answers : Phase.Answers service account (.switching exchange resume))
    (moved : here.Moves service peer deed after) :
    ∃ later, OnCourse (account.enter service.serverName deed) (deeds ++ [deed]) after.phase
      later := by
  obtain ⟨inOrder, built, obeys, begun⟩ := onCourse
  obtain ⟨σ, host, before, later, step, task, ran, rfl, rfl⟩ := moves_switching phase moved
  rw [phase] at obeys
  have same : handed [.switched step] = [] →
      Stage.of (handed (deeds ++ [.switched step])) = some stage ∧
        ∀ emit ∈ handed (deeds ++ [.switched step]), emit.Built := by
    intro quiet
    rw [Deed.handed_quiet deeds _ quiet]
    exact ⟨inOrder, built⟩
  have ends : ∀ exchange : Exchange Call Answer,
      (here.finishBody service exchange).phase.Obeys stage := by
    intro exchange
    simp only [finishBody]
    split
    · trivial
    · split <;> trivial
  have fails : (account.fail service.serverName).ending ≠ .completed := by
    rw [(account.fail_notes service.serverName).1]
    decide
  rcases answers with ⟨agrees, running⟩ | ⟨rfl, givenUp⟩
  · obtain ⟨goesOn, orderly⟩ := obeys agrees.unbroken
    have steps := Task.switch_orderly orderly goesOn ran
    have notCompleted : account.ending ≠ .completed := by rw [running]; decide
    cases step with
    | suspended wait => exact ⟨stage, (same rfl).1, (same rfl).2, steps, begun⟩
    | yielded emit =>
        obtain ⟨later, takes, further⟩ := steps
        have more : handed (deeds ++ [.switched (.yielded emit)]) = handed deeds ++ [emit] :=
          Deed.handed_append _ _
        refine ⟨later, ?_, ?_, ?_, ?_⟩
        · rw [more, Stage.of_append, inOrder]
          exact takes.may
        · rw [more, List.forall_mem_append, List.forall_mem_singleton]
          exact ⟨built, takes.built⟩
        · cases emit with
          | head head first length => exact further
          | file head body => exact further
          | chunk data =>
              simp only [afterSwitch, takeEmit, drain]
              split
              · exact fun _ => ⟨reply_goesOn _, further⟩
              · exact further
        · intro completed
          have ending : account.ending = .completed := by
            cases emit <;> exact completed
          exact absurd ending notCompleted
    | completed => exact ⟨stage, (same rfl).1, (same rfl).2, ends _, fun _ _ => steps⟩
    | failed error =>
        exact ⟨stage, (same rfl).1, (same rfl).2, trivial, fun completed => absurd completed fails⟩
  · rcases Task.switch_cancel ran with rfl | ⟨error, rfl⟩
    · refine ⟨stage, (same rfl).1, (same rfl).2, ends _, fun _ unbroken => ?_⟩
      have whole := account.complete_notes.2.2.2.symm.trans unbroken
      rw [givenUp.entered] at whole
      cases whole
    · exact ⟨stage, (same rfl).1, (same rfl).2, trivial, fun completed => absurd completed fails⟩

/-- Every step inside an answer keeps it in order, unless a wait gives the task up. -/
theorem onCourse_step (tallies : here.Tallies service request deeds)
    (onCourse : OnCourse (Account.along service.serverName request deeds) deeds here.phase stage)
    (inside : here.endsAnswer service = false) (moved : here.Moves service peer deed after)
    (waits : ∀ outcome, deed = .waited outcome → Task.cancels outcome.resume = false) :
    ∃ later, OnCourse (Account.along service.serverName request (deeds ++ [deed]))
      (deeds ++ [deed]) after.phase later := by
  rw [Account.along_append]
  by_cases switches : ∃ step, deed = .switched step
  · obtain ⟨step, rfl⟩ := switches
    obtain ⟨exchange, resume, phase⟩ := moves_switched moved
    have answers := tallies.answers (by rw [phase]; rfl)
    rw [phase] at answers
    exact onCourse_switching phase onCourse answers moved
  · have quiet : ∀ step, deed ≠ .switched step := fun step same => switches ⟨step, same⟩
    have nothing : handed [deed] = [] := by
      cases deed with
      | switched step => exact absurd rfl (quiet step)
      | _ => rfl
    refine ⟨stage, ?_, ?_, ?_, ?_⟩
    · rw [Deed.handed_quiet deeds deed nothing]
      exact onCourse.inOrder
    · rw [Deed.handed_quiet deeds deed nothing]
      exact onCourse.built
    · rcases tallies.carries.isOfTask with isTask | last
      · exact obeys_quiet onCourse.obeys isTask inside moved quiet waits
      · exact Phase.obeys_last (moves_last last moved).2
    · rw [Account.enter_ending _ _ quiet, (Account.enter_notes _ _ _).2, Bool.or_eq_false_iff]
      exact fun completed unbroken => onCourse.begun completed unbroken.1

/-- **Along the course of an answer, a task that hands its answer over in order does so**,
unless a wait gives it up. -/
theorem Course.onCourse {id : TaskId} {task : Task Emit Call Answer}
    (course : Course service peer (connection.begin request id task) deeds here)
    (orderly : task.Orderly .start)
    (waits : ∀ outcome ∈ Deed.outcomes deeds, Task.cancels outcome.resume = false) :
    ∃ stage, OnCourse (Account.along service.serverName request deeds) deeds here.phase stage := by
  induction course with
  | begun =>
      exact ⟨.start, rfl, nofun, fun _ => ⟨rfl, orderly⟩, fun completed => by cases completed⟩
  | @step deeds here after deed before inside moved ih =>
      have earlier : ∀ outcome ∈ Deed.outcomes deeds, Task.cancels outcome.resume = false := by
        intro outcome member
        refine waits outcome ?_
        rw [Deed.outcomes_append]
        exact List.mem_append_left _ member
      obtain ⟨stage, onCourse⟩ := ih earlier
      refine onCourse_step before.tallies onCourse inside moved fun outcome same => ?_
      refine waits outcome ?_
      rw [same, Deed.outcomes_append]
      exact List.mem_append_right _ (List.mem_singleton.2 rfl)

end Connection

end EmbeddedHttp
