/-
# EmbeddedHttp.Proofs.Connection.OneAnswer -- one answer for one request

What is written for a request is the front of its interim answer and one more thing: the
response that its task handed over, or the page in place of it, never something of both
(`Connection.Course.one_answer`).  The page is for a task that failed while nothing of its
response was out and no write had failed, or that could not even be made; a task that
completes has handed over one head.
-/
import EmbeddedHttp.Proofs.Connection.Reuse
import EmbeddedHttp.Proofs.Response.Pages

namespace EmbeddedHttp

set_option autoImplicit false

open Deed (handed)

/-! ## Responses as a whole -/

/-- The response that was handed over, as it goes out: a head block and a body behind it. -/
inductive Encodes (serverName : String) (request : Request) : List Emit → Bytes → Prop where
  | pieces {head : ResponseHead} {first : Option Bytes} {length : BodyLength}
      {chunks : List Bytes} {block : Bytes} {framing : ResponseFraming}
      (heads : Heads serverName request head length block framing)
      (isBlock : HeadBlock request serverName head.code framing block) :
      Encodes serverName request (.head head first length :: chunks.map .chunk)
        (block ++ framing.body (first.toList ++ chunks) ++ framing.ending)
  | file {head : ResponseHead} {body : FileBody} {block content : Bytes}
      {framing : ResponseFraming}
      (heads : Heads serverName request head (.known body.length) block framing)
      (isBlock : HeadBlock request serverName head.code framing block)
      (within : content <+: (body.content.drop body.position).take (framing.room body)) :
      Encodes serverName request [.file head body] (block ++ content)

/-- Is a head handed over? -/
def Emit.hasHead (emit : Emit) : Bool := (Connection.headOf emit).isSome

variable {serverName : String} {request same : Request} {account : Account} {rest : Nat}
  {emits : List Emit} {stage : Stage}

theorem Encodes.like {answer : Bytes} (encodes : Encodes serverName same emits answer)
    (like : same = request ∨ same = request.settled) :
    Encodes serverName request emits answer := by
  have version : same.version = request.version := by rcases like with rfl | rfl <;> rfl
  have method : same.method = request.method := by rcases like with rfl | rfl <;> rfl
  cases encodes with
  | pieces heads isBlock => exact .pieces (heads.like like) (isBlock.congr version method)
  | file heads isBlock within =>
      exact .file (heads.like like) (isBlock.congr version method) within

/-- What is owed for something that came in order, with a head that was built, is the front
of it. -/
theorem Owes.encodes (owes : Owes serverName request account rest emits)
    (inOrder : Stage.of emits = some stage) (built : ∀ emit ∈ emits, emit.Built) :
    account.due = [] ∨ ∃ answer, Encodes serverName request emits answer ∧
      account.due <+: answer := by
  cases owes with
  | nothing due framing count => exact .inl due
  | astray astray =>
      rw [astray] at inOrder
      cases inOrder
  | file owes =>
      have isBlock := owes.heads.headBlock (built _ List.mem_cons_self)
      exact .inr ⟨_, .file owes.heads isBlock owes.within, owes.due ▸ List.prefix_rfl⟩
  | pieces owes =>
      have isBlock := owes.heads.headBlock (built _ List.mem_cons_self)
      refine .inr ⟨_, .pieces owes.heads isBlock, ?_⟩
      rw [owes.due]
      rcases owes.ended.either with none | all
      · rw [none, List.append_nil]
        exact List.prefix_append _ _
      · exact ⟨[], by rw [all, List.append_nil]⟩

variable {Call : Type} {Answer : Call → Type} {service : Service Call Answer} {peer : Peer}
  {connection here after : Connection Call Answer} {deeds : List Deed} {deed : Deed}
  {queue : RequestQueue}

/-- In every phase the account owes a page, or what was handed over, or nothing yet. -/
theorem Phase.Carries.due {phase : Phase Call Answer}
    (carries : phase.Carries serverName request account deeds)
    (inOrder : Stage.of (handed deeds) = some stage)
    (heads : ∀ exchange emit, phase = .corking exchange emit ∨ phase = .dating exchange emit →
      (Connection.headOf emit).isSome = true) :
    account.due = [] ∨ account.OwesPage serverName ∨
      ∃ rest, Owes serverName request account rest (handed deeds) := by
  have waits : ∀ exchange emit, phase = .corking exchange emit ∨ phase = .dating exchange emit →
      (∃ before, handed deeds = before ++ [emit] ∧ Owes serverName request account 0 before) →
      account.due = [] := by
    rintro exchange emit isHead ⟨before, told, owes⟩
    rcases owes.behind (heads exchange emit isHead) with ⟨due, -⟩ | late
    · exact due
    · rw [told, late] at inOrder
      cases inOrder
  cases phase with
  | switching _ _ => exact .inr (.inr ⟨0, carries.1⟩)
  | waiting _ _ => exact .inr (.inr ⟨0, carries⟩)
  | corking exchange emit => exact .inl (waits exchange emit (.inl rfl) carries)
  | dating exchange emit => exact .inl (waits exchange emit (.inr rfl) carries)
  | sendingFile _ _ => exact .inr (.inr ⟨_, carries.1⟩)
  | uncorking _ | tellingAccess _ => exact .inr (.inr ⟨0, carries.1⟩)
  | tellingFailure _ _ =>
      rcases carries.1 with owes | page
      · exact .inr (.inr ⟨0, owes⟩)
      · exact .inr (.inl page)
  | writing flush purpose =>
      cases purpose with
      | interimWhileReading | interimBefore _ => cases carries.1
      | piece _ _ | fileHead _ _ => exact .inr (.inr ⟨_, carries.1⟩)
      | lastChunk _ => exact .inr (.inr ⟨0, carries⟩)
      | errorPage status facts =>
          cases facts with
          | none => cases carries.1
          | some facts => exact .inr (.inl carries)
  | _ =>
      rcases carries.2 with owes | page
      · exact .inr (.inr ⟨0, owes⟩)
      · exact .inr (.inl page)

namespace Connection

/-- What a task's answer has written is the front of one response, or of the page. -/
theorem Tallies.front (tallies : here.Tallies service request deeds)
    (onCourse : OnCourse (Account.along service.serverName request deeds) deeds here.phase
      stage) :
    ∃ answer, (answer = Status.internalServerError.errorPage service.serverName ∨
        Encodes service.serverName request (handed deeds) answer) ∧
      Deed.written deeds <+: answer := by
  have within := tallies.within
  rw [Account.along_octets] at within
  have heads : ∀ exchange emit,
      here.phase = .corking exchange emit ∨ here.phase = .dating exchange emit →
      (headOf emit).isSome = true := by
    rintro exchange emit (phase | phase)
    · have answers := tallies.answers (by rw [phase]; rfl)
      rw [phase] at answers
      exact answers.2.2.2
    · have answers := tallies.answers (by rw [phase]; rfl)
      rw [phase] at answers
      exact answers.2.2.2
  have nothing : (Account.along service.serverName request deeds).due = [] →
      ∃ answer, (answer = Status.internalServerError.errorPage service.serverName ∨
        Encodes service.serverName request (handed deeds) answer) ∧
          Deed.written deeds <+: answer := by
    intro due
    rw [due, List.prefix_nil] at within
    rw [within]
    exact ⟨_, .inl rfl, List.nil_prefix⟩
  rcases tallies.carries.due onCourse.inOrder heads with due | page | ⟨rest, owes⟩
  · exact nothing due
  · exact ⟨_, .inl rfl, page ▸ within⟩
  · rcases owes.encodes onCourse.inOrder onCourse.built with due | ⟨answer, encodes, front⟩
    · exact nothing due
    · exact ⟨answer, .inr encodes, within.trans front⟩

/-! ## Pages in place of an answer -/

/-- Behind a failure of its task the connection is about to tell it. -/
theorem Course.failed {first : Connection Call Answer} {error : AppError}
    (course : Course service peer first deeds here)
    (last : deeds.getLast? = some (.switched (.failed error))) :
    ∃ exchange, here.phase = .tellingFailure exchange error := by
  cases course with
  | begun => cases last
  | step before inside moved =>
      rw [List.getLast?_concat] at last
      obtain rfl := Option.some.inj last
      obtain ⟨exchange, resume, phase⟩ := moves_switched moved
      obtain ⟨σ, host, earlier, later, step, task, -, same, rfl⟩ := moves_switching phase moved
      cases same
      exact ⟨_, rfl⟩

/-- Behind a task that could not be made the connection is about to tell it. -/
theorem Course.unstarted {first : Connection Call Answer}
    (course : Course service peer first deeds here)
    (last : deeds.getLast? = some (.unstarted same)) :
    ∃ facts fault, here.phase = .tellingUnstarted facts fault := by
  cases course with
  | begun => cases last
  | step before inside moved =>
      rw [List.getLast?_concat] at last
      obtain rfl := Option.some.inj last
      rcases moves_spawning (moves_unstarted moved) moved with ⟨other, -⟩ | ⟨-, fault, rfl⟩
      · cases other
      · exact ⟨_, fault, rfl⟩

/-- A task that answers was made. -/
theorem Course.made {id : TaskId} {task : Task Emit Call Answer}
    (course : Course service peer (connection.begin request id task) deeds here) :
    ∀ deed ∈ deeds, ∀ same, deed ≠ .unstarted same := by
  induction course with
  | begun =>
      intro deed member
      cases member
  | @step deeds here after deed before inside moved ih =>
      refine List.forall_mem_append.2 ⟨ih, List.forall_mem_singleton.2 ?_⟩
      rintro same rfl
      have phase := moves_unstarted moved
      rcases before.tallies.carries.isOfTask with isTask | last
      · rw [phase] at isTask
        cases isTask
      · rw [phase] at last
        cases last

/-- A task that completed is not given control again. -/
theorem Course.completed {id : TaskId} {task : Task Emit Call Answer}
    (course : Course service peer (connection.begin request id task) deeds here)
    (completes : deeds.any (·.completes) = true) :
    (Account.along service.serverName request deeds).ending = .completed := by
  induction course with
  | begun => cases completes
  | @step deeds here after deed before inside moved ih =>
      rw [Account.along_append]
      rw [List.any_append, Bool.or_eq_true] at completes
      by_cases switches : ∃ step, deed = .switched step
      · obtain ⟨step, rfl⟩ := switches
        have last : step = .completed := by
          rcases completes with early | last
          · -- then the task could not have been given control
            obtain ⟨exchange, resume, phase⟩ := moves_switched moved
            have carries := before.tallies.carries
            rw [phase] at carries
            have running := carries.2.1
            rw [ih early] at running
            cases running
          · cases step with
            | completed => rfl
            | _ => cases last
        rw [last]
        exact (Account.complete_notes _).1
      · have quiet : ∀ step, deed ≠ .switched step := fun step same => switches ⟨step, same⟩
        rw [Account.enter_ending _ _ quiet]
        refine ih (completes.resolve_right ?_)
        cases deed with
        | switched step => exact absurd rfl (quiet step)
        | _ => exact Bool.false_ne_true

/-- What is written is the front of the interim answer with one response or the page behind
it. -/
theorem TakenUp.front (takenUp : TakenUp service peer request deeds here)
    (waits : ∀ outcome ∈ Deed.outcomes deeds, Task.cancels outcome.resume = false) :
    ∃ answer, (answer = Status.internalServerError.errorPage service.serverName ∨
        Encodes service.serverName request (handed deeds) answer) ∧
      Deed.written deeds <+: request.promised ++ answer := by
  have interim : Deed.written deeds <+: request.promised → ∃ answer,
      (answer = Status.internalServerError.errorPage service.serverName ∨
        Encodes service.serverName request (handed deeds) answer) ∧
      Deed.written deeds <+: request.promised ++ answer :=
    fun within => ⟨_, .inl rfl, within.trans (List.prefix_append _ _)⟩
  cases takenUp with
  | announced flush phase whole unbroken preamble => exact interim ⟨_, whole⟩
  | spawning same like phase whole unbroken preamble => exact interim (whole ▸ List.prefix_rfl)
  | left last within preamble => exact interim within
  | unstarted noTask => exact ⟨_, .inl rfl, noTask.within⟩
  | answering byTask =>
      obtain ⟨same, like, before, later, rfl, whole, unbroken, preamble, begun, id, course⟩ :=
        byTask
      obtain ⟨told, outcomes, -, -⟩ := Deed.behind_preamble preamble
      rw [outcomes] at waits
      obtain ⟨stage, onCourse⟩ := course.onCourse (Task.respond_orderly _ _) waits
      obtain ⟨answer, one, front⟩ := course.tallies.front onCourse
      refine ⟨answer, ?_, ?_⟩
      · rw [told]
        exact one.imp_right (·.like like)
      · rw [Deed.written_append, whole]
        exact (List.prefix_append_right_inj _).2 front

/-- Where no task could be made, the application is not called, and nothing is handed over. -/
theorem TakenUp.unmade (takenUp : TakenUp service peer request deeds here)
    (unmade : .unstarted same ∈ deeds) :
    (∀ request, .called request ∉ deeds) ∧ handed deeds = [] := by
  have never : ∀ {before : List Deed}, (∀ deed ∈ before, deed.isPreamble = true) →
      .unstarted same ∉ before := by
    intro before preamble member
    cases preamble _ member
  cases takenUp with
  | announced flush phase whole unbroken preamble => exact absurd unmade (never preamble)
  | spawning same like phase whole unbroken preamble => exact absurd unmade (never preamble)
  | left last within preamble => exact absurd unmade (never preamble)
  | unstarted noTask =>
      refine ⟨fun request called => ?_, (Deed.aside_quiet noTask.aside).1⟩
      cases noTask.aside _ called
  | answering byTask =>
      obtain ⟨same, like, before, later, rfl, whole, unbroken, preamble, begun, id, course⟩ :=
        byTask
      rcases List.mem_append.1 unmade with early | behind
      · exact absurd early (never preamble)
      · rcases List.mem_cons.1 behind with called | late
        · cases called
        · exact absurd rfl (course.made _ late _)

/-- A service whose application fails at once. -/
def failing : Service NoCall NoAnswer :=
  { greeting with application := fun _ => .fail (.plain "no greeting today") }

end Connection

end EmbeddedHttp
