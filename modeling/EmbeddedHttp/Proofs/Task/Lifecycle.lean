/-
# EmbeddedHttp.Proofs.Task.Lifecycle -- the life of a task, whatever its driver does

No discipline is asked of the driver here: it may switch with any message at any point,
wait or not, and drop the task whenever it has control.  Still the state word says that the
task runs whenever its code does (`Sound`), so no wait of its code is ever refused; a body
is begun, and ends, once (`Told`); and a task that was given up keeps control until it is
over.
-/
import EmbeddedHttp.Proofs.Task.Handshake

namespace EmbeddedHttp

set_option autoImplicit false

variable {Item Call : Type} {Answer : Call → Type}

namespace Cell

variable {cell later : Cell} {before after : TaskState}

theorem transition_won :
    cell.transition before after = (true, later) ↔
      cell.state = before ∧ later = cell.setState after := by
  rw [transition]
  split <;> simp_all [eq_comm]

theorem transition_lost :
    cell.transition before after = (false, later) ↔ cell.state ≠ before ∧ later = cell := by
  rw [transition]
  split <;> simp_all [eq_comm]

theorem take?_state {message : Resume} (taken : cell.take? = some (message, later)) :
    later.state = cell.state := by
  rw [take?] at taken
  split at taken <;> cases taken
  rfl

@[simp] theorem setState_state (cell : Cell) (state : TaskState) :
    (cell.setState state).state = state := rfl

@[simp] theorem setState_inbox (cell : Cell) (state : TaskState) :
    (cell.setState state).inbox = cell.inbox := rfl

@[simp] theorem post_state (cell : Cell) (message : Resume) :
    (cell.post message).state = cell.state := rfl

end Cell

/-! ## The state word and control -/

/-- The driver has no control: it switched in, or it drops a task, which is given up. -/
def Driver.Blocked (given : Bool) (driver : Driver) : Prop :=
  driver = .blocked ∨ driver = .dropping ∧ given = true

@[simp] theorem Driver.blocked_blocked (given : Bool) : Driver.Blocked given .blocked := .inl rfl

@[simp] theorem Driver.dropping_blocked : Driver.Blocked true .dropping := .inr ⟨rfl, rfl⟩

/-- Who has control, by where the task stands; a task that was given up never parks. -/
@[simp] def Thread.Control (given : Bool) (driver : Driver) : Thread Item Call Answer → Prop
  | .unborn _ => driver = .fresh ∧ given = false
  | .code cancelled _ | .parking cancelled _ _ =>
      cancelled = given ∧ Driver.Blocked given driver
  | .parked _ _ => given = false ∧ driver ≠ .blocked ∧ driver ≠ .dropping
  | .waking _ resume _ =>
      Task.cancels resume = given ∧ Driver.Blocked given driver
  | .ending _ => Driver.Blocked given driver
  | .spent => driver = .done ∨ driver = .gone

/-- Is the driver at a wait of the task? -/
@[simp] def Driver.awaits : Driver → Bool
  | .asked _ | .waiting _ | .late | .owed => true
  | _ => false

theorem Thread.Control.parked {given : Bool} {driver : Driver} {thread : Thread Item Call Answer}
    (control : thread.Control given driver) (awaits : driver.awaits = true) :
    given = false ∧ ∃ point next, thread = .parked point next := by
  cases thread <;> cases driver <;> simp_all [Driver.Blocked]

namespace Handshake

/-- The state word of a task and the control over it, behind some acts. -/
structure Sound (acts : List (Act Item)) (here : Handshake Item Call Answer) : Prop where
  running : here.thread.runs = true → here.cell.state = .running
  tracked : (Act.suspension acts).isSome = here.thread.suspends
  unclaimed : here.cell.state = .suspended → Act.suspension acts = some []
  control : here.thread.Control (Act.givenUp acts) here.driver

variable {may : Discipline} {body : Program Item Call Answer}
  {here after : Handshake Item Call Answer} {acts : List (Act Item)} {act : Act Item}

theorem Sound.start (body : Program Item Call Answer) : Sound [] (start body) :=
  ⟨fun _ => rfl, rfl, fun suspended => (by cases suspended), rfl, rfl⟩

theorem Sound.call (sound : Sound acts here) (step : here.Calls act after) :
    Sound (acts ++ [act]) after := by
  obtain ⟨running, tracked, unclaimed, control⟩ := sound
  cases step with
  | claims call signal claim =>
      obtain ⟨suspended, rfl⟩ := Cell.transition_won.1 claim
      have unclaimed := unclaimed suspended
      refine ⟨fun runs => ?_, ?_, ?_, ?_⟩
      · have := running runs
        simp_all
      · simp_all
      · simp
      · simpa using control
  | fails call signal claim =>
      obtain ⟨-, rfl⟩ := Cell.transition_lost.1 claim
      exact ⟨running, by simpa using tracked, by simpa using unclaimed, by simpa using control⟩
  | posts claimed present =>
      exact ⟨running, by simpa using tracked, by simpa using unclaimed, by simpa using control⟩
  | bounces claimed =>
      exact ⟨running, by simpa using tracked, by simpa using unclaimed, by simpa using control⟩

theorem Sound.code (sound : Sound acts here) (step : here.Codes act after) :
    Sound (acts ++ [act]) after := by
  obtain ⟨running, tracked, unclaimed, control⟩ := sound
  cases step with
  | @enters cell later driver calls cancelled program wait next stands moved =>
      obtain ⟨-, rfl⟩ := Cell.transition_won.1 moved
      obtain ⟨kind, descriptor, interest, timeout⟩ := wait
      refine ⟨by simp, ?_, ?_, by simpa using control⟩
      · cases kind <;> simp_all
      · cases kind <;> simp_all [Wait.state]
  | barred stands stays => exact absurd (running rfl) (Cell.transition_lost.1 stays).1
  | asks =>
      exact ⟨by simp, by simpa using tracked, by simpa using unclaimed, by simp_all⟩
  | hands =>
      exact ⟨by simp, by simpa using tracked, by simpa using unclaimed, by simp_all⟩
  | unwinds | withholds | wakes =>
      exact ⟨by simp, by simp, by simp, by simpa using control⟩
  | acts answer =>
      exact ⟨running, by simpa using tracked, by simpa using unclaimed, by simpa using control⟩
  | ends atEnd =>
      exact ⟨by simp, by simpa using tracked, by simp, by simpa using control.2⟩
  | tells | frees =>
      exact ⟨by simp, by simpa using tracked, by simpa using unclaimed, by simp⟩

theorem Sound.drive (sound : Sound acts here) (step : here.Drives may act after) :
    Sound (acts ++ [act]) after := by
  obtain ⟨running, tracked, unclaimed, control⟩ := sound
  cases step with
  | begins allowed goesOn =>
      exact ⟨running, by simpa using tracked, by simpa using unclaimed, by simp_all⟩
  | exits allowed cancels | resumes allowed | misses allowed held =>
      exact ⟨by simp, by simpa using tracked, by simpa using unclaimed, by simp_all⟩
  | forgets | lets =>
      exact ⟨by simp, by simpa using tracked, by simpa using unclaimed, by simp⟩
  | drops =>
      exact ⟨by simp, by simpa using tracked, by simpa using unclaimed, by simp [Task.cancels]⟩
  | waits | passes suspends limited | waited ends =>
      obtain ⟨given, point, next, rfl⟩ := control.parked rfl
      exact ⟨by simp, by simpa using tracked, by simpa using unclaimed, by simpa using given⟩
  | takes suspends taken | takesOwed taken =>
      obtain ⟨given, point, next, rfl⟩ := control.parked rfl
      exact ⟨by simp, by simpa using tracked, by simpa [Cell.take?_state taken] using unclaimed,
        by simpa using given⟩
  | expires expire =>
      obtain ⟨given, point, next, rfl⟩ := control.parked rfl
      obtain ⟨-, rfl⟩ := Cell.transition_won.1 expire
      exact ⟨by simp, by simpa using tracked, by simp, by simpa using given⟩
  | yields expire =>
      obtain ⟨given, point, next, rfl⟩ := control.parked rfl
      obtain ⟨-, rfl⟩ := Cell.transition_lost.1 expire
      exact ⟨by simp, by simpa using tracked, by simpa using unclaimed, by simpa using given⟩

theorem Sound.step (sound : Sound acts here) (moved : here.Moves may act after) :
    Sound (acts ++ [act]) after := by
  cases moved with
  | call step => exact sound.call step
  | code step => exact sound.code step
  | drive step => exact sound.drive step

theorem Run.sound (run : Run may (start body) acts here) : Sound acts here := by
  induction run with
  | here => exact Sound.start body
  | step run moved ih => exact ih.step moved

/-! ## What was told -/

end Handshake

namespace Act

/-- The messages that the driver switched with. -/
def switches (acts : List (Act Item)) : List Resume := acts.filterMap switch?

/-- The results that the body came to its end with. -/
def results (acts : List (Act Item)) : List (Except AppError Unit) := acts.filterMap result?

/-- The final steps that the driver was told. -/
def finals (acts : List (Act Item)) : List (Step Item) := acts.filterMap final?

/-- The first switch let the body begin. -/
def Began (acts : List (Act Item)) : Prop :=
  ∃ resume rest, switches acts = resume :: rest ∧ Task.cancels resume = false

/-- The body did nothing. -/
def Idle (acts : List (Act Item)) : Prop := ∀ act ∈ acts, act.ofBody = false

variable {acts : List (Act Item)} {act : Act Item}

theorem filterMap_concat {α : Type} (f : Act Item → Option α) (acts : List (Act Item))
    (act : Act Item) : (acts ++ [act]).filterMap f = acts.filterMap f ++ (f act).toList := by
  cases told : f act <;> simp [told]

@[simp] theorem switches_append (acts : List (Act Item)) (act : Act Item) :
    switches (acts ++ [act]) = switches acts ++ act.switch?.toList :=
  filterMap_concat switch? acts act

@[simp] theorem results_append (acts : List (Act Item)) (act : Act Item) :
    results (acts ++ [act]) = results acts ++ act.result?.toList :=
  filterMap_concat result? acts act

@[simp] theorem finals_append (acts : List (Act Item)) (act : Act Item) :
    finals (acts ++ [act]) = finals acts ++ act.final?.toList :=
  filterMap_concat final? acts act

@[simp] theorem idle_append (acts : List (Act Item)) (act : Act Item) :
    Idle (acts ++ [act]) ↔ Idle acts ∧ act.ofBody = false := by
  simp [Idle, or_imp, forall_and]

theorem Began.append (began : Began acts) (act : Act Item) : Began (acts ++ [act]) := by
  obtain ⟨resume, rest, first, goesOn⟩ := began
  exact ⟨resume, rest ++ act.switch?.toList, by simp [first], goesOn⟩

theorem Idle.results_nil (idle : Idle acts) : results acts = [] := by
  refine List.filterMap_eq_nil_iff.2 fun act member => ?_
  have := idle act member
  cases act <;> simp_all [Act.ofBody, Act.result?]

/-- The final steps that may be told next: the end of the body, once; that the body never
began; and behind either, that the task is over. -/
inductive Last (acts : List (Act Item)) : Step Item → Prop where
  | own (result : Except AppError Unit) (began : Began acts) (ended : results acts = [result])
      (first : finals acts = []) : Last acts (Task.lastStep result)
  | never (idle : Idle acts) (first : finals acts = []) : Last acts Handshake.neverBegan
  | again (told : finals acts ≠ []) : Last acts Handshake.intoFinished

/-- A task under way has begun, and nothing was told of an end. -/
structure Open (acts : List (Act Item)) : Prop where
  began : Began acts
  unended : results acts = []
  untold : finals acts = []

/-- Is this neither a switch, nor a final step, nor something that the body does? -/
structure Silent (act : Act Item) : Prop where
  ofBody : act.ofBody = false
  switch : act.switch? = none
  final : act.final? = none

theorem Silent.result (silent : act.Silent) : act.result? = none := by
  have := silent.ofBody
  cases act <;> simp_all [Act.ofBody, Act.result?]

theorem Open.append (held : Open acts) (unended : act.result? = none)
    (untold : act.final? = none) : Open (acts ++ [act]) :=
  ⟨held.began.append act, by simp [held.unended, unended], by simp [held.untold, untold]⟩

theorem Last.isFinal {last : Step Item} (lasts : Last acts last) : last.isFinal = true := by
  cases lasts with
  | own result began ended first => cases result <;> rfl
  | never idle first => rfl
  | again told => rfl

theorem Last.append {last : Step Item} (lasts : Last acts last) (silent : act.Silent) :
    Last (acts ++ [act]) last := by
  cases lasts with
  | own result began ended first =>
      exact .own result (began.append act) (by simp [ended, silent.result])
        (by simp [first, silent.final])
  | never idle first =>
      exact .never ((idle_append acts act).2 ⟨idle, silent.ofBody⟩) (by simp [first, silent.final])
  | again told => exact .again (by simp [told])

end Act

/-- What was told so far, by where a task stands. -/
@[simp] def Thread.Told (acts : List (Act Item)) (driver : Driver) :
    Thread Item Call Answer → Prop
  | .unborn _ => Act.switches acts = [] ∧ Act.Idle acts ∧ Act.finals acts = []
  | .code _ _ | .parking _ _ _ | .parked _ _ => Act.Open acts
  | .waking _ resume _ =>
      Act.Open acts ∧ ((Act.switches acts).getLast? = some resume ∨ resume = .cancel)
  | .ending last => Act.Last acts last
  | .spent => driver = .gone ∨ Act.finals acts ≠ []

theorem Thread.Told.append {acts : List (Act Item)} {act : Act Item} {driver : Driver}
    {thread : Thread Item Call Answer} (told : thread.Told acts driver) (silent : act.Silent) :
    thread.Told (acts ++ [act]) driver := by
  cases thread with
  | unborn body => simp_all [silent.switch, silent.ofBody, silent.final]
  | code cancelled program => exact Act.Open.append told silent.result silent.final
  | parking cancelled wait next => exact Act.Open.append told silent.result silent.final
  | parked point next => exact Act.Open.append told silent.result silent.final
  | waking point resume next =>
      exact ⟨told.1.append silent.result silent.final, by simpa [silent.switch] using told.2⟩
  | ending last => exact Act.Last.append told silent
  | spent => exact told.imp_right fun some => by simp [some]

namespace Handshake

variable {may : Discipline} {body : Program Item Call Answer}
  {here after : Handshake Item Call Answer} {acts : List (Act Item)} {act : Act Item}

theorem told_call (told : here.thread.Told acts here.driver) (step : here.Calls act after) :
    after.thread.Told (acts ++ [act]) after.driver := by
  cases step <;> exact told.append ⟨rfl, rfl, rfl⟩

theorem told_code (told : here.thread.Told acts here.driver) (step : here.Codes act after) :
    after.thread.Told (acts ++ [act]) after.driver := by
  cases step with
  | enters stands moved => exact Act.Open.append told rfl rfl
  | barred stands stays => exact Act.Open.append told rfl rfl
  | asks => exact Act.Open.append told rfl rfl
  | hands => exact Act.Open.append told rfl rfl
  | unwinds => exact Act.Open.append told rfl rfl
  | withholds => exact Act.Open.append told rfl rfl
  | acts answer => exact Act.Open.append told rfl rfl
  | wakes => exact told.1.append rfl rfl
  | @ends cell driver calls cancelled program result atEnd =>
      exact .own result (told.began.append _) (by simp [told.unended, Act.result?])
        (by simp [told.untold, Act.final?])
  | tells => exact .inr (by simp [Act.final?, Act.Last.isFinal told])
  | frees => exact .inl rfl

theorem told_drive (sound : Sound acts here) (told : here.thread.Told acts here.driver)
    (step : here.Drives may act after) : after.thread.Told (acts ++ [act]) after.driver := by
  cases step with
  | @begins cell driver calls resume body allowed goesOn =>
      exact ⟨⟨resume, [], by simp [told.1, Act.switch?], goesOn⟩,
        by simp [told.2.1.results_nil, Act.result?], by simp [told.2.2, Act.final?]⟩
  | exits allowed cancels =>
      exact .never (by simp [told.2.1, Act.ofBody]) (by simp [told.2.2, Act.final?])
  | resumes allowed => exact ⟨Act.Open.append told rfl rfl, .inl (by simp [Act.switch?])⟩
  | misses allowed held =>
      exact .again (by simpa [Act.final?] using told.resolve_left held)
  | forgets => exact .inl rfl
  | lets => exact .inl rfl
  | drops => exact ⟨Act.Open.append told rfl rfl, .inr rfl⟩
  | waits | passes suspends limited | waited ends | takes suspends taken | takesOwed taken
  | expires expire | yields expire =>
      obtain ⟨-, point, next, rfl⟩ := sound.control.parked rfl
      exact Act.Open.append told rfl rfl

theorem Run.told (run : Run may (start body) acts here) : here.thread.Told acts here.driver := by
  induction run with
  | here => exact ⟨rfl, (fun act member => by cases member), rfl⟩
  | step run moved ih =>
      cases moved with
      | call step => exact told_call ih step
      | code step => exact told_code ih step
      | drive step => exact told_drive run.sound ih step

end Handshake

/-! ## The task's own side comes to its end -/

namespace Program

/-- Code that goes on right behind a point of other code. -/
inductive Behind : Program Item Call Answer → Program Item Call Answer → Prop where
  | suspend (timeout : Option Nat) (next : Continuation Item Call Answer)
      (result : Except TaskError (Option Payload)) : Behind (next result) (.suspend timeout next)
  | trampoline (descriptor : Option Descriptor) (read write : Bool) (timeout : Option Nat)
      (next : Except TaskError Unit → Program Item Call Answer) (result : Except TaskError Unit) :
      Behind (next result) (.trampoline descriptor read write timeout next)
  | sleep (time : Nat) (next : Except TaskError Unit → Program Item Call Answer)
      (result : Except TaskError Unit) : Behind (next result) (.sleep time next)
  | emit (item : Item) (next : Except TaskError Unit → Program Item Call Answer)
      (result : Except TaskError Unit) : Behind (next result) (.emit item next)
  | call (request : Call) (next : Answer request → Program Item Call Answer)
      (answer : Answer request) : Behind (next answer) (.call request next)

theorem behind_acc (program : Program Item Call Answer) : Acc Behind program := by
  induction program with
  | finish result => exact ⟨_, fun later behind => by cases behind⟩
  | panic payload => exact ⟨_, fun later behind => by cases behind⟩
  | suspend timeout next ih =>
      refine ⟨_, fun later behind => ?_⟩
      cases behind
      exact ih _
  | trampoline descriptor read write timeout next ih =>
      refine ⟨_, fun later behind => ?_⟩
      cases behind
      exact ih _
  | sleep time next ih =>
      refine ⟨_, fun later behind => ?_⟩
      cases behind
      exact ih _
  | emit item next ih =>
      refine ⟨_, fun later behind => ?_⟩
      cases behind
      exact ih _
  | call request next ih =>
      refine ⟨_, fun later behind => ?_⟩
      cases behind
      exact ih _

theorem wait?_behind {program : Program Item Call Answer} {wait : Wait}
    {next : Continuation Item Call Answer} (stands : program.wait? = some (wait, next))
    (result : Except TaskError (Option Payload)) : Behind (next result) program := by
  cases program <;> cases stands
  · exact .suspend _ _ _
  · exact .trampoline _ _ _ _ _ _
  · exact .sleep _ _ _

end Program

namespace Thread

/-- The task's own side goes from one place to another with a step. -/
def Follows (later earlier : Thread Item Call Answer) : Prop :=
  ∃ (here after : Handshake Item Call Answer) (act : Act Item),
    here.Codes act after ∧ here.thread = earlier ∧ after.thread = later

/-- Where code may go with a step. -/
inductive BehindCode (program : Program Item Call Answer) : Thread Item Call Answer → Prop where
  | code (cancelled : Bool) {later : Program Item Call Answer} (behind : later.Behind program) :
      BehindCode program (.code cancelled later)
  | parking (cancelled : Bool) (wait : Wait) {next : Continuation Item Call Answer}
      (behind : ∀ result, (next result).Behind program) :
      BehindCode program (.parking cancelled wait next)
  | parked (point : Point) (next : Continuation Item Call Answer) :
      BehindCode program (.parked point next)
  | ending (last : Step Item) : BehindCode program (.ending last)

theorem Follows.code {cancelled : Bool} {program : Program Item Call Answer}
    {later : Thread Item Call Answer} (follows : later.Follows (.code cancelled program)) :
    BehindCode program later := by
  obtain ⟨here, after, act, step, before, rfl⟩ := follows
  cases step <;> cases before
  case enters => exact .parking _ _ fun result => Program.wait?_behind ‹_› result
  case barred => exact .code _ (Program.wait?_behind ‹_› _)
  case hands => exact .parked _ _
  case withholds => exact .code _ (.emit _ _ _)
  case acts answer => exact .code _ (.call _ _ answer)
  case ends => exact .ending _

theorem settles_spent : Acc Follows (.spent : Thread Item Call Answer) := by
  refine ⟨_, fun later follows => ?_⟩
  obtain ⟨here, after, act, step, before, -⟩ := follows
  cases step <;> cases before

theorem settles_parked (point : Point) (next : Continuation Item Call Answer) :
    Acc Follows (.parked point next) := by
  refine ⟨_, fun later follows => ?_⟩
  obtain ⟨here, after, act, step, before, -⟩ := follows
  cases step <;> cases before

theorem settles_ending (last : Step Item) :
    Acc Follows (.ending last : Thread Item Call Answer) := by
  refine ⟨_, fun later follows => ?_⟩
  obtain ⟨here, after, act, step, before, rfl⟩ := follows
  cases step <;> cases before <;> exact settles_spent

theorem settles_parking {wait : Wait} {next : Continuation Item Call Answer} (cancelled : Bool)
    (behind : ∀ result, Acc Follows (.code true (next result))) :
    Acc Follows (.parking cancelled wait next) := by
  refine ⟨_, fun later follows => ?_⟩
  obtain ⟨here, after, act, step, before, rfl⟩ := follows
  cases step <;> cases before
  · exact settles_parked _ _
  · exact behind _

theorem settles_code (program : Program Item Call Answer) (cancelled : Bool) :
    Acc Follows (.code cancelled program) := by
  induction program.behind_acc generalizing cancelled with
  | intro program earlier ih =>
      refine ⟨_, fun later follows => ?_⟩
      cases follows.code with
      | code cancelled behind => exact ih _ behind cancelled
      | parking cancelled wait behind =>
          exact settles_parking cancelled fun result => ih _ (behind result) true
      | parked point next => exact settles_parked point next
      | ending last => exact settles_ending last

/-- **The task's own side cannot act forever** without giving up control: its code is a tree,
and no node of it is run again. -/
theorem settles (thread : Thread Item Call Answer) : Acc Follows thread := by
  cases thread with
  | unborn body =>
      refine ⟨_, fun later follows => ?_⟩
      obtain ⟨here, after, act, step, before, -⟩ := follows
      cases step <;> cases before
  | code cancelled program => exact settles_code program cancelled
  | parking cancelled wait next => exact settles_parking cancelled fun _ => settles_code _ _
  | parked point next => exact settles_parked point next
  | waking point resume next =>
      refine ⟨_, fun later follows => ?_⟩
      obtain ⟨here, after, act, step, before, rfl⟩ := follows
      cases step <;> cases before
      exact settles_code _ _
  | ending last => exact settles_ending last
  | spent => exact settles_spent

end Thread

namespace Handshake

variable {may : Discipline} {body : Program Item Call Answer}
  {here after : Handshake Item Call Answer} {acts : List (Act Item)} {act : Act Item}

theorem Sound.moves (sound : Sound acts here) {cancelled : Bool}
    {program : Program Item Call Answer} (stands : here.thread = .code cancelled program)
    (state : TaskState) :
    here.cell.transition .running state = (true, here.cell.setState state) :=
  Cell.transition_won.2 ⟨sound.running (by rw [stands]; rfl), rfl⟩

/-- While the driver has no control, the task's own side has a step. -/
theorem Sound.goesOn (sound : Sound acts here) (answered : ∀ request, Nonempty (Answer request))
    (blocked : here.driver.Blocked (Act.givenUp acts)) : ∃ act after, here.Codes act after := by
  have moves := @sound.moves
  obtain ⟨cell, thread, driver, calls⟩ := here
  have control := sound.control
  cases thread with
  | unborn body => rcases blocked with rfl | ⟨rfl, -⟩ <;> cases control.1
  | code cancelled program =>
      cases program with
      | finish result => exact ⟨_, _, .ends rfl⟩
      | panic payload => exact ⟨_, _, .ends rfl⟩
      | suspend timeout next => exact ⟨_, _, .enters rfl (moves rfl _)⟩
      | trampoline descriptor read write timeout next =>
          exact ⟨_, _, .enters rfl (moves rfl _)⟩
      | sleep time next => exact ⟨_, _, .enters rfl (moves rfl _)⟩
      | call request next =>
          obtain ⟨answer⟩ := answered request
          exact ⟨_, _, .acts answer⟩
      | emit item next =>
          cases cancelled with
          | true => exact ⟨_, _, .withholds⟩
          | false =>
              rcases blocked with rfl | ⟨-, given⟩
              · exact ⟨_, _, .hands⟩
              · cases control.1.trans given
  | parking cancelled wait next =>
      cases cancelled with
      | true => exact ⟨_, _, .unwinds⟩
      | false =>
          rcases blocked with rfl | ⟨-, given⟩
          · exact ⟨_, _, .asks⟩
          · cases control.1.trans given
  | parked point next =>
      rcases blocked with rfl | ⟨rfl, -⟩
      · exact absurd rfl control.2.1
      · exact absurd rfl control.2.2
  | waking point resume next => exact ⟨_, _, .wakes⟩
  | ending last =>
      rcases blocked with rfl | ⟨rfl, -⟩
      · exact ⟨_, _, .tells⟩
      · exact ⟨_, _, .frees⟩
  | spent =>
      rcases blocked with rfl | ⟨rfl, -⟩ <;> rcases control with other | other <;> cases other

/-- **The life of a task**, behind some acts: what may be next. -/
structure Lifecycle (may : Discipline) (acts : List (Act Item))
    (here : Handshake Item Call Answer) : Prop where
  /-- The body acts behind a first switch that let it begin, and before anything final. -/
  begins : ∀ {act after}, here.Moves may act after → act.ofBody = true → Act.Open acts
  /-- One final step is the end of the body, or says that it never began; any later one says
  that the task is over. -/
  ends : ∀ {last after}, here.Moves may (.stepped last) after → last.isFinal = true →
    Act.Last acts last
  /-- A task that is over or was given up gives control back with nothing but final steps. -/
  final : ∀ {step after}, here.Moves may (.stepped step) after →
    Act.finals acts ≠ [] ∨ Act.givenUp acts = true → step.isFinal = true
  /-- A point of a task that was given up fails at once or as soon as it is told. -/
  cancelled : ∀ {point result after}, here.Moves may (.left point result) after →
    Act.givenUp acts = true → result = .error .cancelled
  /-- Any other point gives what the last switch brought. -/
  received : ∀ {point result after}, here.Moves may (.left point result) after →
    Act.givenUp acts = false →
      ∃ resume, (Act.switches acts).getLast? = some resume ∧ result = Task.received resume
  /-- So a point says that the task were suspended already only if the driver said so. -/
  echoed : ∀ {point after}, here.Moves may (.left point (.error .alreadySuspended)) after →
    (Act.switches acts).getLast? = some (.error .alreadySuspended)
  /-- A task that was given up keeps control until it is over. -/
  held : Act.givenUp acts = true → here.thread = .spent ∨ here.driver.Blocked true
  /-- The task's own side has a step whenever its driver has no control ... -/
  goesOn : (∀ request, Nonempty (Answer request)) → here.driver.Blocked (Act.givenUp acts) →
    ∃ act after, here.Codes act after
  /-- ... but cannot have one forever. -/
  settles : Acc Thread.Follows here.thread
  /-- The state word says so whenever code runs. -/
  running : ∀ {cancelled program}, here.thread = .code cancelled program →
    here.cell.state = .running
  /-- No wait is refused because the task were suspended already. -/
  granted : ∀ {point after}, ¬ here.Moves may (.barred point) after

theorem told_begins (told : here.thread.Told acts here.driver) (moved : here.Moves may act after)
    (body : act.ofBody = true) : Act.Open acts := by
  cases moved with
  | call step => cases step <;> cases body
  | drive step => cases step <;> cases body
  | code step =>
      cases step with
      | wakes => exact told.1
      | enters | barred | unwinds | withholds | acts | ends => exact told
      | asks | hands | tells | frees => cases body

theorem told_final {step : Step Item} (sound : Sound acts here)
    (told : here.thread.Told acts here.driver) (moved : here.Moves may (.stepped step) after)
    (gone : Act.finals acts ≠ [] ∨ Act.givenUp acts = true) : step.isFinal = true := by
  rcases moved with step | step | step <;> cases step
  case tells => exact told.isFinal
  -- what parks has told nothing final, and was not given up
  case asks =>
    rcases gone with some | given
    · exact absurd told.untold some
    · cases sound.control.1.trans given
  case hands =>
    rcases gone with some | given
    · exact absurd told.untold some
    · cases sound.control.1.trans given

theorem Sound.cancelled {point : Point} {result : Except TaskError (Option Payload)}
    (sound : Sound acts here) (moved : here.Moves may (.left point result) after)
    (given : Act.givenUp acts = true) : result = .error .cancelled := by
  rcases moved with step | step | step <;> cases step
  case unwinds => rfl
  case withholds => rfl
  case wakes resume _ =>
    have cancels := sound.control.1.trans given
    cases resume <;> first | rfl | cases cancels

theorem told_received {point : Point} {result : Except TaskError (Option Payload)}
    (sound : Sound acts here) (told : here.thread.Told acts here.driver)
    (moved : here.Moves may (.left point result) after) (given : Act.givenUp acts = false) :
    ∃ resume, (Act.switches acts).getLast? = some resume ∧ result = Task.received resume := by
  rcases moved with step | step | step <;> cases step
  case unwinds => cases sound.control.1.trans given
  case withholds => cases sound.control.1.trans given
  case wakes =>
    refine ⟨_, told.2.resolve_right ?_, rfl⟩
    rintro rfl
    cases sound.control.1.trans given

theorem Sound.held (sound : Sound acts here) (given : Act.givenUp acts = true) :
    here.thread = .spent ∨ here.driver.Blocked true := by
  obtain ⟨cell, thread, driver, calls⟩ := here
  have control := sound.control
  rw [given] at control
  cases thread with
  | unborn body => cases control.2
  | parked point next => cases control.1
  | code cancelled program => exact .inr control.2
  | parking cancelled wait next => exact .inr control.2
  | waking point resume next => exact .inr control.2
  | ending last => exact .inr control
  | spent => exact .inl rfl

/-- **Whatever its driver does, a task lives as it should**: its body begins and ends once, a
wait of it is never refused, and given up it unwinds to its end at once. -/
theorem Run.lifecycle (run : Run may (start body) acts here) : Lifecycle may acts here where
  begins := told_begins run.told
  ends moved final := by
    have told := run.told
    rcases moved with step | step | step <;> cases step
    · cases final
    · cases final
    · exact told
  final := told_final run.sound run.told
  cancelled := run.sound.cancelled
  received := told_received run.sound run.told
  echoed moved := by
    cases given : Act.givenUp acts with
    | true => cases run.sound.cancelled moved given
    | false =>
        obtain ⟨resume, last, result⟩ := told_received run.sound run.told moved given
        cases resume <;> cases result
        exact last
  held := run.sound.held
  goesOn := run.sound.goesOn
  settles := here.thread.settles
  running stands := run.sound.running (by rw [stands]; rfl)
  granted moved := by
    have running := run.sound.running
    rcases moved with step | step | step <;> cases step
    exact (Cell.transition_lost.1 ‹_›).1 (running rfl)

/-- A task that is dropped at its suspension does not hand over what it has behind it. -/
theorem drop_unwinds :
    Lifecycle (fun _ _ => True)
      [.switched .start, .entered (.wait .suspend), .stepped (.suspended (Wait.suspend none)),
        .waits, .dropped, .left (.wait .suspend) (.error .cancelled),
        .left .emit (.error .cancelled), .ended (.ok ())]
      (⟨⟨.finished, []⟩, .ending .completed, .dropping, []⟩ :
        Handshake String Unit fun _ => Unit) := by
  let body : Program String Unit (fun _ => Unit) :=
    .suspend none fun _ => .emit "late" fun _ => .finish (.ok ())
  have begun : Run (fun _ _ => True) (start body) [.switched .start]
      ⟨Cell.new, .code false body, .blocked, []⟩ := .single (.drive (.begins trivial rfl))
  have entered := begun.step (.code (.enters rfl rfl))
  have waits := (entered.step (.code .asks)).step (.drive .waits)
  have dropped := (waits.step (.drive .drops)).step (.code .wakes)
  have ended := (dropped.step (.code .withholds)).step (.code (.ends rfl))
  exact ended.lifecycle

end Handshake

end EmbeddedHttp
