/-
# EmbeddedHttp.Proofs.Task.Resumption -- a suspension ends with the one call that won it

A prompt driver waits for what its task asks to wait for.  With such a driver the state word,
the inbox, the calls in between, the task and the driver stay in step (`Stage`): a suspension
that nobody claimed has a deadline to end it; a suspension that a call claimed ends with the
message of that call and of no other, however late it is posted, and leaves no message behind
for the next one.
-/
import EmbeddedHttp.Proofs.Task.Lifecycle
import EmbeddedHttp.Proofs.Task.Waiting

namespace EmbeddedHttp

set_option autoImplicit false

variable {Item Call : Type} {Answer : Call → Type}

namespace Handshake

/-! ## Stages of a suspension -/

/-- The cell of a suspension, with the calls that have yet to post and those that claimed. -/
inductive Slot : Cell → List (Nat × Signal) → List (Nat × Signal) → Prop where
  | free : Slot ⟨.suspended, []⟩ [] []
  | claimed (call : Nat) (signal : Signal) :
      Slot ⟨.resumed, []⟩ [(call, signal)] [(call, signal)]
  | posted (call : Nat) (signal : Signal) :
      Slot ⟨.resumed, [signal.toResume]⟩ [] [(call, signal)]

/-- What a suspension brings, by the calls that claimed it. -/
inductive Brings : List (Nat × Signal) → Resume → Prop where
  | timeout : Brings [] (.error .timeout)
  | message (call : Nat) (signal : Signal) : Brings [(call, signal)] signal.toResume

/-- A task that was not given up, and its driver, outside any suspension. -/
inductive Outside : Thread Item Call Answer → Driver → Prop where
  | unborn (body : Program Item Call Answer) : Outside (.unborn body) .fresh
  | code (program : Program Item Call Answer) : Outside (.code false program) .blocked
  | parking {wait : Wait} (other : wait.kind ≠ .suspend) (next : Continuation Item Call Answer) :
      Outside (.parking false wait next) .blocked
  | asked {wait : Wait} (other : wait.kind ≠ .suspend) (next : Continuation Item Call Answer) :
      Outside (.parked (.wait wait.kind) next) (.asked wait)
  | waiting {wait : Wait} (other : wait.kind ≠ .suspend)
      (next : Continuation Item Call Answer) :
      Outside (.parked (.wait wait.kind) next) (.waiting wait)
  | waited {point : Point} (other : point.suspends = false) (outcome : WaitOutcome)
      (next : Continuation Item Call Answer) : Outside (.parked point next) (.waited outcome)
  | handed (next : Continuation Item Call Answer) : Outside (.parked .emit next) .handed
  | waking {point : Point} (other : point.suspends = false) {resume : Resume}
      (goesOn : Task.cancels resume = false) (next : Continuation Item Call Answer) :
      Outside (.waking point resume next) .blocked
  | ending (last : Step Item) : Outside (.ending last) .blocked
  | spent : Outside .spent .done

/-- A task and its driver inside a suspension whose end is not known yet. -/
inductive Inside : Thread Item Call Answer → Driver → Prop where
  | parking {wait : Wait} (suspends : wait.kind = .suspend)
      (next : Continuation Item Call Answer) : Inside (.parking false wait next) .blocked
  | asked {wait : Wait} (suspends : wait.kind = .suspend) (next : Continuation Item Call Answer) :
      Inside (.parked (.wait .suspend) next) (.asked wait)
  | waiting {wait : Wait} (suspends : wait.kind = .suspend)
      (next : Continuation Item Call Answer) :
      Inside (.parked (.wait .suspend) next) (.waiting wait)
  | late (next : Continuation Item Call Answer) : Inside (.parked (.wait .suspend) next) .late

/-- What a suspension brings is on its way to the code. -/
inductive Returning : Resume → Thread Item Call Answer → Driver → Prop where
  | waited (outcome : WaitOutcome) (next : Continuation Item Call Answer) :
      Returning outcome.resume (.parked (.wait .suspend) next) (.waited outcome)
  | waking (message : Resume) (next : Continuation Item Call Answer) :
      Returning message (.waking (.wait .suspend) message next) .blocked

/-- A task that was not given up, with a prompt driver, by the suspension under way. -/
inductive Stage : Option (List (Nat × Signal)) → Handshake Item Call Answer → Prop where
  | quiet {state : TaskState} {thread : Thread Item Call Answer} {driver : Driver}
      (idle : state ≠ .suspended) (outside : Outside thread driver) :
      Stage none ⟨⟨state, []⟩, thread, driver, []⟩
  | held {cell : Cell} {thread : Thread Item Call Answer} {driver : Driver}
      {calls claims : List (Nat × Signal)} (slot : Slot cell calls claims)
      (inside : Inside thread driver) : Stage (some claims) ⟨cell, thread, driver, calls⟩
  /-- The deadline passed, but a call was there before it. -/
  | owed {cell : Cell} {calls : List (Nat × Signal)} {claim : Nat × Signal}
      (slot : Slot cell calls [claim]) (next : Continuation Item Call Answer) :
      Stage (some [claim]) ⟨cell, .parked (.wait .suspend) next, .owed, calls⟩
  | decided {state : TaskState} {thread : Thread Item Call Answer} {driver : Driver}
      {claims : List (Nat × Signal)} {message : Resume} (idle : state ≠ .suspended)
      (brings : Brings claims message) (returning : Returning message thread driver) :
      Stage (some claims) ⟨⟨state, []⟩, thread, driver, []⟩

theorem Brings.goesOn {claims : List (Nat × Signal)} {message : Resume}
    (brings : Brings claims message) : Task.cancels message = false := by
  cases brings with
  | timeout => rfl
  | message call signal => exact signal.toResume_goesOn

variable {suspension : Option (List (Nat × Signal))} {claims : List (Nat × Signal)}
  {here after : Handshake Item Call Answer} {act : Act Item}

/-! ## One step -/

/-- A call claims what nobody claimed, and posts what it claimed. -/
theorem Slot.call {cell : Cell} {thread : Thread Item Call Answer} {driver : Driver}
    {calls : List (Nat × Signal)} (slot : Slot cell calls claims) (present : driver ≠ .gone)
    (step : Calls ⟨cell, thread, driver, calls⟩ act after) :
    ∃ cell calls claims', after = ⟨cell, thread, driver, calls⟩ ∧ Slot cell calls claims' ∧
      Act.follow (some claims) act = some claims' ∧ (claims = [] ∨ claims' = claims) := by
  cases step with
  | claims call signal claim =>
      obtain ⟨suspended, rfl⟩ := Cell.transition_won.1 claim
      cases slot with
      | free => exact ⟨_, _, _, rfl, .claimed call signal, rfl, .inl rfl⟩
      | claimed => cases suspended
      | posted => cases suspended
  | fails call signal claim =>
      obtain ⟨-, rfl⟩ := Cell.transition_lost.1 claim
      exact ⟨_, _, _, rfl, slot, rfl, .inr rfl⟩
  | @posts _ _ _ _ call signal claimed present =>
      cases slot with
      | free => cases claimed
      | posted => cases claimed
      | claimed _ _ =>
          cases List.mem_singleton.1 claimed
          exact ⟨_, _, _, rfl, by simpa [Cell.post] using .posted call signal, rfl, .inr rfl⟩
  | bounces claimed => exact absurd rfl present

theorem Slot.take {cell later : Cell} {calls : List (Nat × Signal)} {message : Resume}
    (slot : Slot cell calls claims) (taken : cell.take? = some (message, later)) :
    Brings claims message ∧ calls = [] ∧ later = ⟨.resumed, []⟩ := by
  cases slot with
  | free => cases taken
  | claimed call signal => cases taken
  | posted call signal =>
      cases taken
      exact ⟨.message call signal, rfl, rfl⟩

theorem Slot.expire {cell later : Cell} {calls : List (Nat × Signal)}
    (slot : Slot cell calls claims) (expire : cell.expire = (true, later)) :
    Brings claims (.error .timeout) ∧ calls = [] ∧ later = ⟨.running, []⟩ := by
  obtain ⟨suspended, rfl⟩ := Cell.transition_won.1 expire
  cases slot with
  | free => exact ⟨.timeout, rfl, rfl⟩
  | claimed call signal => cases suspended
  | posted call signal => cases suspended

theorem Slot.claim {cell later : Cell} {calls : List (Nat × Signal)}
    (slot : Slot cell calls claims) (expire : cell.expire = (false, later)) :
    ∃ claim, claims = [claim] ∧ later = cell := by
  obtain ⟨idle, rfl⟩ := Cell.transition_lost.1 expire
  cases slot with
  | free => exact absurd rfl idle
  | claimed call signal => exact ⟨_, rfl, rfl⟩
  | posted call signal => exact ⟨_, rfl, rfl⟩

theorem other_suspends {wait : Wait} (other : wait.kind ≠ .suspend) :
    (Point.wait wait.kind).suspends = false := by
  cases kind : wait.kind <;> simp_all

/-- A call on a task that is not suspended fails, and changes nothing. -/
theorem idle_call {state : TaskState} {inbox : List Resume} {thread : Thread Item Call Answer}
    {driver : Driver} (idle : state ≠ .suspended)
    (step : Calls ⟨⟨state, inbox⟩, thread, driver, []⟩ act after) :
    ∃ call signal, act = .refused call signal ∧ after = ⟨⟨state, inbox⟩, thread, driver, []⟩ := by
  cases step with
  | claims call signal claim => exact absurd (Cell.transition_won.1 claim).1 idle
  | fails call signal claim =>
      obtain ⟨-, rfl⟩ := Cell.transition_lost.1 claim
      exact ⟨call, signal, rfl, rfl⟩
  | posts claimed present => cases claimed
  | bounces claimed => cases claimed

theorem Stage.call (stage : Stage suspension here) (step : here.Calls act after) :
    Stage (Act.follow suspension act) after := by
  cases stage with
  | quiet idle outside =>
      obtain ⟨call, signal, rfl, rfl⟩ := idle_call idle step
      exact .quiet idle outside
  | decided idle brings returning =>
      obtain ⟨call, signal, rfl, rfl⟩ := idle_call idle step
      exact .decided idle brings returning
  | @held _ _ driver _ _ slot inside =>
      have present : driver ≠ .gone := by rintro rfl; cases inside
      obtain ⟨cell, calls, claims, rfl, slot, follows, -⟩ := slot.call present step
      exact follows ▸ .held slot inside
  | owed slot next =>
      obtain ⟨cell, calls, claims, rfl, slot, follows, same⟩ := slot.call (by simp) step
      rw [follows, same.resolve_left (by simp)]
      rw [same.resolve_left (by simp)] at slot
      exact .owed slot next

theorem Stage.code (stage : Stage suspension here) (step : here.Codes act after)
    (running : here.thread.runs = true → here.cell.state = .running) :
    Stage (Act.follow suspension act) after := by
  cases stage with
  | quiet idle outside =>
      cases outside with
      | unborn body => cases step
      | code program =>
        cases step with
        | @enters _ _ _ _ _ _ wait next stands moved =>
          obtain ⟨-, rfl⟩ := Cell.transition_won.1 moved
          obtain ⟨kind, descriptor, interest, timeout⟩ := wait
          cases kind with
          | suspend => exact .held .free (.parking rfl next)
          | io => exact .quiet (by simp [Wait.state]) (.parking (by simp) next)
          | sleep => exact .quiet (by simp [Wait.state]) (.parking (by simp) next)
        | barred stands stays => exact absurd (running rfl) (Cell.transition_lost.1 stays).1
        | hands => exact .quiet idle (.handed _)
        | acts answer => exact .quiet idle (.code _)
        | ends atEnd => exact .quiet (by simp) (.ending _)
      | parking other next =>
        cases step with
        | asks => exact .quiet idle (.asked other next)
      | waking other goesOn next =>
        cases step with
        | wakes =>
            rw [goesOn]
            exact .quiet (by simp) (.code _)
      | ending last =>
        cases step with
        | tells => exact .quiet idle .spent
      | asked other next => cases step
      | waiting other next => cases step
      | waited other outcome next => cases step
      | handed next => cases step
      | spent => cases step
  | held slot inside =>
      cases inside with
      | parking suspends next =>
        cases step with
        | asks =>
          rw [suspends]
          exact .held slot (.asked suspends next)
      | asked suspends next => cases step
      | waiting suspends next => cases step
      | late next => cases step
  | owed slot next => cases step
  | decided idle brings returning =>
      cases returning with
      | waited outcome next => cases step
      | waking message next =>
        cases step with
        | wakes =>
          rw [brings.goesOn]
          exact .quiet (by simp) (.code _)

theorem Stage.drive (stage : Stage suspension here) (step : here.Drives Driver.prompt act after)
    (kept : act.givesUp = false) : Stage (Act.follow suspension act) after := by
  cases stage with
  | quiet idle outside =>
      cases outside with
      | unborn body =>
        cases step with
        | begins allowed goesOn => exact .quiet idle (.code _)
        | exits allowed cancels => cases cancels.symm.trans kept
        | forgets => cases kept
      | code program => cases step
      | parking other next => cases step
      | asked other next =>
        cases step with
        | waits => exact .quiet idle (.waiting other next)
        | resumes allowed => cases allowed
        | drops => cases kept
      | waiting other next =>
        cases step with
        | takes suspends taken => exact absurd suspends other
        | passes suspends limited => exact absurd suspends other
        | waited ends => exact .quiet idle (.waited (other_suspends other) _ next)
        | resumes allowed => cases allowed
        | drops => cases kept
      | waited other outcome next =>
        cases step with
        | resumes allowed => exact .quiet idle (.waking other kept next)
        | drops => cases kept
      | handed next =>
        cases step with
        | resumes allowed => exact .quiet idle (.waking rfl kept next)
        | drops => cases kept
      | waking other goesOn next => cases step
      | ending last => cases step
      | spent =>
        cases step with
        | misses allowed held => exact .quiet idle (.ending _)
        | lets held => cases kept
  | held slot inside =>
      cases inside with
      | parking suspends next => cases step
      | asked suspends next =>
        cases step with
        | waits => exact .held slot (.waiting suspends next)
        | resumes allowed => cases allowed
        | drops => cases kept
      | waiting suspends next =>
        cases step with
        | takes _ taken =>
          obtain ⟨brings, rfl, rfl⟩ := slot.take taken
          exact .decided (by simp) brings (.waited (.resumed _) next)
        | passes suspends limited => exact .held slot (.late next)
        | waited ends => cases ends <;> simp_all
        | resumes allowed => cases allowed
        | drops => cases kept
      | late next =>
        cases step with
        | expires expire =>
          obtain ⟨brings, rfl, rfl⟩ := slot.expire expire
          exact .decided (by simp) brings (.waited .timeout next)
        | yields expire =>
          obtain ⟨claim, rfl, rfl⟩ := slot.claim expire
          exact .owed slot next
        | resumes allowed => cases allowed
        | drops => cases kept
  | owed slot next =>
      cases step with
      | takesOwed taken =>
        obtain ⟨brings, rfl, rfl⟩ := slot.take taken
        exact .decided (by simp) brings (.waited (.resumed _) next)
      | resumes allowed => cases allowed
      | drops => cases kept
  | decided idle brings returning =>
      cases returning with
      | waited outcome next =>
        cases step with
        | resumes allowed =>
          obtain rfl := allowed
          exact .decided idle brings (.waking _ next)
        | drops => cases kept
      | waking message next => cases step

variable {body : Program Item Call Answer} {acts : List (Act Item)} {may : Discipline}

theorem Run.stage (run : Run Driver.prompt (start body) acts here)
    (kept : Act.givenUp acts = false) : Stage (Act.suspension acts) here := by
  induction run with
  | here => exact .quiet (by simp) (.unborn body)
  | step run moved ih =>
      rw [Act.givenUp_append, Bool.or_eq_false_iff] at kept
      have stage := ih kept.1
      rw [Act.suspension_append]
      cases moved with
      | call step => exact stage.call step
      | code step => exact stage.code step run.sound.running
      | drive step => exact stage.drive step kept.2

/-! ## What a suspension gives -/

theorem left_suspends {point : Point} {result : Except TaskError (Option Payload)}
    (moved : here.Moves may (.left point result) after) (suspends : point.suspends = true) :
    here.thread.suspends = true := by
  rcases moved with step | step | step <;> cases step
  case unwinds => exact suspends
  case wakes => exact suspends
  case withholds => cases suspends

/-- What code gets while a suspension is under way is what that brings. -/
theorem Stage.left {point : Point} {result : Except TaskError (Option Payload)}
    (stage : Stage (some claims) here) (moved : here.Moves may (.left point result) after) :
    point = .wait .suspend ∧ here.calls = [] ∧
      ∃ message, Brings claims message ∧ result = Task.received message := by
  rcases moved with step | step | step
  · cases step
  · cases stage with
    | held slot inside => cases inside <;> cases step
    | owed slot next => cases step
    | decided idle brings returning =>
        cases returning with
        | waited outcome next => cases step
        | waking message next =>
          cases step with
          | wakes => exact ⟨rfl, rfl, _, brings, rfl⟩
  · cases step

theorem Stage.posted {call : Nat} {signal : Signal} (stage : Stage suspension here)
    (moved : here.Moves may (.posted call signal) after) :
    suspension = some [(call, signal)] := by
  have claimed : (call, signal) ∈ here.calls := by
    rcases moved with step | step | step <;> cases step
    assumption
  cases stage with
  | quiet idle outside => cases claimed
  | decided idle brings returning => cases claimed
  | held slot inside =>
      cases slot with
      | free => cases claimed
      | posted => cases claimed
      | claimed => exact congrArg (fun claim => some [claim]) (List.mem_singleton.1 claimed).symm
  | owed slot next =>
      cases slot with
      | posted => cases claimed
      | claimed => exact congrArg (fun claim => some [claim]) (List.mem_singleton.1 claimed).symm

theorem Stage.entered (stage : Stage suspension here)
    (moved : here.Moves may (.entered (.wait .suspend)) after) :
    here.cell.inbox = [] ∧ here.calls = [] := by
  have stands : ∃ cancelled program, here.thread = .code cancelled program := by
    generalize enters : (.entered (.wait .suspend) : Act Item) = act at moved
    rcases moved with step | step | step <;> cases step <;>
      first
      | exact ⟨_, _, rfl⟩
      | cases enters
  obtain ⟨cancelled, program, stands⟩ := stands
  cases stage with
  | quiet idle outside => exact ⟨rfl, rfl⟩
  | decided idle brings returning => exact ⟨rfl, rfl⟩
  | held slot inside => cases inside <;> cases stands
  | owed slot next => cases stands

/-! ## A claimed suspension ends -/

/-- How many acts lie before the end of a suspension at most. -/
def distance (here : Handshake Item Call Answer) : Nat :=
  here.calls.length +
    match here.thread, here.driver with
    | .parking _ _ _, _ => 7
    | .parked _ _, .asked _ => 6
    | .parked _ _, .waiting _ => 5
    | .parked _ _, .late => 4
    | .parked _ _, .owed => 3
    | .parked _ _, _ => 2
    | .waking _ _ _, _ => 1
    | _, _ => 0

theorem Sound.nears (sound : Sound acts here) (inside : here.thread.suspends = true)
    (idle : here.cell.state ≠ .suspended) (moved : here.Moves may act after)
    (kept : act.givesUp = false) :
    (∃ point result, act = .left point result) ∨
      (∀ suspension, Act.follow suspension act = suspension) ∧
        after.distance + (if act.refuses then 0 else 1) ≤ here.distance := by
  cases moved with
  | call step =>
      refine .inr ?_
      cases step with
      | claims call signal claim => exact absurd (Cell.transition_won.1 claim).1 idle
      | fails call signal claim =>
          exact ⟨fun suspension => by cases suspension <;> rfl, by simp [distance, Act.refuses]⟩
      | posts claimed present | bounces claimed =>
          have fewer := List.length_erase_of_mem claimed
          have some := List.length_pos_of_mem claimed
          exact ⟨fun suspension => by cases suspension <;> rfl,
            by simp only [distance, Act.refuses, Bool.false_eq_true, if_false]; omega⟩
  | code step =>
      cases step with
      | unwinds => exact .inl ⟨_, _, rfl⟩
      | wakes => exact .inl ⟨_, _, rfl⟩
      | asks =>
          exact .inr ⟨fun suspension => by cases suspension <;> rfl,
            by simp [distance, Act.refuses]⟩
      | _ => cases inside
  | drive step =>
      refine .inr ?_
      cases step with
      | begins | exits | misses => cases inside
      | forgets | drops | lets => cases kept
      | @resumes _ driver =>
          exact ⟨fun suspension => by cases suspension <;> rfl,
            by cases driver <;> simp [distance, Act.refuses]⟩
      | waits | takes | passes | expires | yields | takesOwed | waited =>
          obtain ⟨-, point, next, rfl⟩ := sound.control.parked rfl
          exact ⟨fun suspension => by cases suspension <;> rfl, by simp [distance, Act.refuses]⟩

theorem Stage.idle {claim : Nat × Signal} (stage : Stage (some [claim]) here) :
    here.cell.state ≠ .suspended := by
  cases stage with
  | decided idle brings returning => exact idle
  | held slot inside => cases slot <;> simp
  | owed slot next => cases slot <;> simp

theorem Slot.calls_length {cell : Cell} {calls : List (Nat × Signal)}
    (slot : Slot cell calls claims) : calls.length ≤ 1 := by
  cases slot <;> simp

theorem Stage.distance_le (stage : Stage suspension here) : here.distance ≤ 8 := by
  have calls : here.calls.length ≤ 1 := by
    cases stage with
    | quiet idle outside => simp
    | held slot inside => exact slot.calls_length
    | owed slot next => exact slot.calls_length
    | decided idle brings returning => simp
  rw [distance]
  split <;> omega

theorem distance_pos (inside : here.thread.suspends = true) : 0 < here.distance := by
  obtain ⟨cell, thread, driver, calls⟩ := here
  cases thread with
  | unborn | code | ending | spent => cases inside
  | parking => simp [distance]
  | waking => simp [distance]
  | parked => cases driver <;> simp [distance]

variable {call : Nat} {signal : Signal} {more : List (Act Item)}
  {later : Handshake Item Call Answer}

/-- **A claimed suspension returns the message of its claim** before eight more acts other
than refused calls. -/
theorem Run.returns (run : Run Driver.prompt (start body) acts here)
    (claimed : Act.suspension acts = some [(call, signal)])
    (goesOn : Run Driver.prompt here more later) (kept : Act.givenUp (acts ++ more) = false)
    (long : 8 ≤ (more.filter fun act => !act.refuses).length) :
    .left (.wait .suspend) (Task.received signal.toResume) ∈ more := by
  -- each further act but a refused call brings the end nearer, or is the end
  have nearer : .left (.wait .suspend) (Task.received signal.toResume) ∈ more ∨
      Act.suspension (acts ++ more) = some [(call, signal)] ∧
        later.distance + (more.filter fun act => !act.refuses).length ≤ here.distance := by
    clear long
    induction goesOn with
    | here => exact .inr ⟨by simpa using claimed, by simp⟩
    | @step more middle later act goesOn moved ih =>
        rw [← List.append_assoc, Act.givenUp_append, Bool.or_eq_false_iff] at kept
        rcases ih kept.1 with left | ⟨suspension, near⟩
        · exact .inl (List.mem_append_left _ left)
        · have reached := run.append goesOn
          have stage := reached.stage kept.1
          rw [suspension] at stage
          have inside : middle.thread.suspends = true := by
            rw [← reached.sound.tracked, suspension]; rfl
          rcases reached.sound.nears inside stage.idle moved kept.2 with
            ⟨point, result, rfl⟩ | ⟨same, nearer⟩
          · obtain ⟨rfl, -, message, brings, rfl⟩ := stage.left moved
            cases brings
            exact .inl (by simp)
          · refine .inr ⟨by rw [← List.append_assoc, Act.suspension_append, same, suspension], ?_⟩
            cases refuses : act.refuses <;> simp_all <;> omega
  rcases nearer with left | ⟨suspension, near⟩
  · exact left
  · have reached := run.append goesOn
    have inside : later.thread.suspends = true := by
      rw [← reached.sound.tracked, suspension]; rfl
    rw [Act.givenUp, List.any_append, Bool.or_eq_false_iff] at kept
    have short := (run.stage kept.1).distance_le
    have away := distance_pos inside
    omega

theorem Stage.goesOn {claim : Nat × Signal} (stage : Stage (some [claim]) here) :
    ∃ act after, here.Moves Driver.prompt act after ∧ act.givesUp = false ∧
      act.refuses = false := by
  cases stage with
  | held slot inside =>
      cases inside with
      | parking suspends next => exact ⟨_, _, .code .asks, rfl, rfl⟩
      | asked suspends next => exact ⟨_, _, .drive .waits, rfl, rfl⟩
      | waiting suspends next =>
        cases slot with
        | claimed => exact ⟨_, _, .call (.posts (List.mem_singleton_self _) (by simp)), rfl, rfl⟩
        | posted => exact ⟨_, _, .drive (.takes suspends rfl), rfl, rfl⟩
      | late next =>
        cases slot <;> exact ⟨_, _, .drive (.yields rfl), rfl, rfl⟩
  | owed slot next =>
      cases slot with
      | claimed => exact ⟨_, _, .call (.posts (List.mem_singleton_self _) (by simp)), rfl, rfl⟩
      | posted => exact ⟨_, _, .drive (.takesOwed rfl), rfl, rfl⟩
  | decided idle brings returning =>
      cases returning with
      | waited outcome next =>
        have prompt : Driver.prompt (.waited outcome) outcome.resume := rfl
        exact ⟨_, _, .drive (.resumes prompt), brings.goesOn, rfl⟩
      | waking message next => exact ⟨_, _, .code .wakes, rfl, rfl⟩

/-! ## Calls -/

end Handshake

namespace Act

/-- A call that claims. -/
def won? : Act Item → Option (Nat × Signal)
  | .won call signal => some (call, signal)
  | _ => none

/-- A call that claimed and is through, for better or worse. -/
def through? : Act Item → Option (Nat × Signal)
  | .posted call signal | .bounced call signal => some (call, signal)
  | _ => none

end Act

namespace Handshake

variable {body : Program Item Call Answer} {acts : List (Act Item)} {may : Discipline}
  {here after : Handshake Item Call Answer} {act : Act Item}

theorem won_codes (step : here.Codes act after) :
    act.won? = none ∧ act.through? = none ∧ after.calls = here.calls := by
  cases step <;> exact ⟨rfl, rfl, rfl⟩

theorem won_drives (step : here.Drives may act after) :
    act.won? = none ∧ act.through? = none ∧ after.calls = here.calls := by
  cases step <;> exact ⟨rfl, rfl, rfl⟩

/-- Every call that claimed is through once, or under way. -/
theorem Run.accounted (run : Run may (start body) acts here) :
    (acts.filterMap Act.won?).Perm (acts.filterMap Act.through? ++ here.calls) := by
  induction run with
  | here => exact .nil
  | @step acts here after act run moved ih =>
      rw [Act.filterMap_concat, Act.filterMap_concat]
      cases moved with
      | code step =>
          obtain ⟨won, through, same⟩ := won_codes step
          simpa [won, through, same] using ih
      | drive step =>
          obtain ⟨won, through, same⟩ := won_drives step
          simpa [won, through, same] using ih
      | call step =>
          cases step with
          | claims call signal claim =>
              refine (ih.append_right [(call, signal)]).trans ?_
              simpa [Act.through?] using
                (List.perm_append_singleton (call, signal) _).append_left _
          | fails call signal claim => simpa [Act.won?, Act.through?] using ih
          | posts claimed _ | bounces claimed =>
              simpa [Act.won?, Act.through?] using
                ih.trans ((List.perm_cons_erase claimed).append_left _)

theorem Sound.refuses (sound : Sound acts here) (outside : Act.suspension acts = none)
    (signal : Signal) : here.cell.deliver signal = (.error .notSuspended, here.cell) := by
  have idle : here.cell.state ≠ .suspended := fun suspended => by
    cases outside.symm.trans (sound.unclaimed suspended)
  have claim : here.cell.claim = (false, here.cell) := Cell.transition_lost.2 ⟨idle, rfl⟩
  rw [Cell.deliver, claim]

/-! ## The protocol -/

/-- **What becomes of the calls on a suspension**, behind some acts with a prompt driver. -/
structure Resumption (acts : List (Act Item)) (here : Handshake Item Call Answer) : Prop where
  /-- A suspension is under way exactly while code stands inside it. -/
  tracked : (Act.suspension acts).isSome = here.thread.suspends
  /-- Outside a suspension every call fails, and changes nothing. -/
  refuses : Act.suspension acts = none → ∀ signal,
    here.cell.deliver signal = (.error .notSuspended, here.cell)
  /-- A suspension is claimed once at most. -/
  once : ∀ {call signal after}, here.Moves Driver.prompt (.won call signal) after →
    Act.suspension acts = some []
  /-- A call succeeds, or finds the task gone, only once for each claim. -/
  accounted : (acts.filterMap Act.won?).Perm (acts.filterMap Act.through? ++ here.calls)
  /-- It succeeds while the suspension it claimed is under way. -/
  within : ∀ {call signal after}, here.Moves Driver.prompt (.posted call signal) after →
    Act.givenUp acts = false → Act.suspension acts = some [(call, signal)]
  /-- A suspension begins without a message of an earlier one, come or to come. -/
  clean : ∀ {after}, here.Moves Driver.prompt (.entered (.wait .suspend)) after →
    Act.givenUp acts = false → here.cell.inbox = [] ∧ here.calls = []
  /-- It gives the message of the call that claimed it and succeeded, or else its deadline
  passed and no call claimed it. -/
  gives : ∀ {result after}, here.Moves Driver.prompt (.left (.wait .suspend) result) after →
    Act.givenUp acts = false →
      (∃ call signal, Act.suspension acts = some [(call, signal)] ∧ here.calls = [] ∧
        result = Task.received signal.toResume ∧ result ≠ .error .timeout) ∨
      Act.suspension acts = some [] ∧ result = .error .timeout
  /-- A task that was given up gets nothing of what is posted. -/
  cancelled : ∀ {point result after}, here.Moves Driver.prompt (.left point result) after →
    Act.givenUp acts = true → result = .error .cancelled
  /-- Once it is claimed there is a step on its way to its end ... -/
  goesOn : ∀ {claim}, Act.suspension acts = some [claim] → Act.givenUp acts = false →
    ∃ act after, here.Moves Driver.prompt act after ∧ act.givesUp = false ∧ act.refuses = false
  /-- ... and eight such steps bring the message of the claim. -/
  returns : ∀ {call signal more later}, Act.suspension acts = some [(call, signal)] →
    Run Driver.prompt here more later → Act.givenUp (acts ++ more) = false →
    8 ≤ (more.filter fun act => !act.refuses).length →
      .left (.wait .suspend) (Task.received signal.toResume) ∈ more

/-- **A suspension ends with the one call that won it**, or with its deadline and no call. -/
theorem Run.resumption (run : Run Driver.prompt (start body) acts here) :
    Resumption acts here where
  tracked := run.sound.tracked
  refuses := run.sound.refuses
  once moved := by
    rcases moved with step | step | step <;> cases step
    exact run.sound.unclaimed (Cell.transition_won.1 ‹_›).1
  accounted := run.accounted
  within moved kept := (run.stage kept).posted moved
  clean moved kept := (run.stage kept).entered moved
  gives moved kept := by
    have inside := run.sound.tracked.trans (left_suspends moved rfl)
    obtain ⟨claims, suspension⟩ := Option.isSome_iff_exists.1 inside
    have stage := run.stage kept
    rw [suspension] at stage
    obtain ⟨-, answered, message, brings, rfl⟩ := stage.left moved
    cases brings with
    | timeout => exact .inr ⟨suspension, rfl⟩
    | message call signal =>
        refine .inl ⟨call, signal, suspension, answered, rfl, ?_⟩
        cases signal <;> simp [Task.received, Signal.toResume]
  cancelled := run.sound.cancelled
  goesOn claimed kept := by
    have stage := run.stage kept
    rw [claimed] at stage
    exact stage.goesOn
  returns := run.returns

/-- The deadline passes between the claim of a call and its message, which comes through. -/
theorem late_message_received :
    Resumption
      [.switched .start, .entered (.wait .suspend), .stepped (.suspended (Wait.suspend (some 5))),
        .waits, .won 0 (.resumeWith (.text "in time")), .deadline, .overtaken,
        .posted 0 (.resumeWith (.text "in time")), .took (.value (some (.text "in time"))),
        .switched (.value (some (.text "in time"))),
        .left (.wait .suspend) (.ok (some (.text "in time")))]
      (⟨⟨.running, []⟩, .code false (.finish (.ok ())), .blocked, []⟩ :
        Handshake String Unit fun _ => Unit) := by
  let body : Program String Unit (fun _ => Unit) := .suspend (some 5) fun _ => .finish (.ok ())
  have begun : Run Driver.prompt (start body) [.switched .start]
      ⟨Cell.new, .code false body, .blocked, []⟩ := .single (.drive (.begins trivial rfl))
  have entered := begun.step (.code (.enters rfl rfl))
  have waits := (entered.step (.code .asks)).step (.drive .waits)
  have claimed := waits.step (.call (.claims 0 (.resumeWith (.text "in time")) rfl))
  have late := (claimed.step (.drive (.passes rfl rfl))).step (.drive (.yields rfl))
  have posted := late.step (.call (.posts (List.mem_singleton_self _) (by simp)))
  have took := posted.step (.drive (.takesOwed rfl))
  have switched := took.step (.drive (.resumes rfl))
  exact (switched.step (.code .wakes)).resumption

end Handshake

end EmbeddedHttp
