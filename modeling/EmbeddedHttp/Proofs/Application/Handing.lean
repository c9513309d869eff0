/-
# EmbeddedHttp.Proofs.Application.Handing -- an answer is handed over in order

The code of a request task hands over one head, and pieces of a body behind it, or one
head with a file and nothing behind it; it does not end well before it did
(`Handler.perform_orderly`).  The head is one that was built for a status and headers: an
application has no other way to make one.  This holds on every path through the code of an
application, whatever it is told at its suspension points, and so of every turn that the
task is given (`Task.switch_orderly`), unless it is given up.
-/
import Mathlib.Data.List.Induction
import EmbeddedHttp.Application.Handler
import EmbeddedHttp.Proofs.Response.Accepting

namespace EmbeddedHttp

set_option autoImplicit false

/-- A head that was built comes along, or none. -/
def Emit.Built : Emit → Prop
  | .head sent _ _ => ∃ status headers, ResponseHead.Built status headers sent
  | .file sent _ => ∃ status headers, ResponseHead.Built status headers sent
  | .chunk _ => True

/-! ## Stages -/

/-- How far an answer was handed over. -/
inductive Stage where
  | start
  /-- The head is out, and pieces of the body may follow. -/
  | pieces
  /-- Nothing may follow. -/
  | over
  deriving DecidableEq, Repr

namespace Stage

/-- The stage behind one more thing, if it may come now. -/
def after : Stage → Emit → Option Stage
  | .start, .head _ _ _ => some .pieces
  | .start, .file _ _ => some .over
  | .pieces, .chunk _ => some .pieces
  | _, _ => none

/-- This may come now and leads to that stage, and if it has a head, the head was built. -/
structure Takes (stage : Stage) (emit : Emit) (later : Stage) : Prop where
  may : stage.after emit = some later
  built : emit.Built

/-- The stage behind all that was handed over, if it came in order. -/
def of (emits : List Emit) : Option Stage :=
  emits.foldl (fun stage emit => stage.bind (·.after emit)) (some .start)

theorem of_append (emits : List Emit) (emit : Emit) :
    of (emits ++ [emit]) = (of emits).bind (·.after emit) := by
  simp [of]

/-- A head and pieces behind it come in order. -/
theorem of_pieces (head : ResponseHead) (first : Option Bytes) (length : BodyLength)
    (chunks : List Bytes) :
    of (.head head first length :: chunks.map .chunk) = some .pieces := by
  induction chunks using List.reverseRecOn with
  | nil => rfl
  | append_singleton chunks data ih =>
      rw [List.map_append, List.map_singleton, ← List.cons_append, of_append, ih]
      rfl

end Stage

/-! ## Code -/

variable {Call : Type} {Answer : Call → Type} {stage : Stage}

namespace Program

/-- From a stage on, code hands over only what may come, and does not end well before it
handed anything over, whatever it is told. -/
def Orderly (stage : Stage) : RequestProgram Call Answer → Prop
  | .finish (.ok ()) => stage ≠ .start
  | .finish (.error _) | .panic _ => True
  | .suspend _ next => ∀ result, (next result).Orderly stage
  | .trampoline _ _ _ _ next | .sleep _ next => ∀ result, (next result).Orderly stage
  | .emit item next => ∃ later, stage.Takes item later ∧ ∀ result, (next result).Orderly later
  | .call _ next => ∀ answer, (next answer).Orderly stage

/-- What holds where code stops that was not given up. -/
def StopsOrderly (stage : Stage) : Stop Emit Call Answer → Prop
  | .suspended _ next => ∀ result, (next result).Orderly stage
  | .yielded item next => ∃ later, stage.Takes item later ∧ ∀ result, (next result).Orderly later
  | .ended (.ok ()) => stage ≠ .start
  | .ended (.error _) => True

/-- Running code stops in order. -/
theorem run_orderly {σ : Type} (host : Host Call Answer σ) {program : RequestProgram Call Answer}
    (orderly : program.Orderly stage) (s : σ) :
    StopsOrderly stage (program.run host false s).1 := by
  -- running goes on along one path; every suspension point on it may also fail at once
  induction program generalizing s with
  | finish result =>
      cases result with
      | ok done => exact orderly
      | error error => trivial
  | panic payload => trivial
  | suspend timeout next ih =>
      rw [run]
      split
      · exact orderly
      · exact ih _ (orderly _) _
  | trampoline descriptor read write timeout next ih | sleep time next ih =>
      rw [run]
      split
      · intro result
        exact orderly _
      · exact ih _ (orderly _) _
  | emit item next ih =>
      obtain ⟨later, takes, further⟩ := orderly
      exact ⟨later, takes, fun result => further _⟩
  | call request next ih =>
      rw [run]
      exact ih _ (orderly _) _

end Program

namespace RequestProgram

/-- Handing something over that may come now. -/
theorem send_orderly {emit : Emit} {later : Stage}
    {next : Except AppError Bool → RequestProgram Call Answer}
    (takes : stage.Takes emit later)
    (orderly : ∀ result, (next result).Orderly later) : (send emit next).Orderly stage :=
  ⟨later, takes, fun result => orderly (wantsMore result)⟩

theorem sendLast_orderly {emit : Emit} {later : Stage} (takes : stage.Takes emit later)
    (begun : later ≠ .start) : (sendLast emit : RequestProgram Call Answer).Orderly stage := by
  refine send_orderly takes fun result => ?_
  cases result with
  | ok more => exact begun
  | error error => trivial

theorem tell_orderly (calls : List Call) {next : RequestProgram Call Answer}
    (orderly : next.Orderly stage) : (tell calls next).Orderly stage := by
  induction calls with
  | nil => exact orderly
  | cons request rest ih => exact fun _ => ih

theorem sendPulls_orderly (pulls : List (Pull Call)) :
    (sendPulls pulls : RequestProgram Call Answer).Orderly .pieces := by
  have begun : Stage.pieces ≠ .start := by decide
  induction pulls with
  | nil => exact begun
  | cons pull rest ih =>
      rw [sendPulls]
      refine tell_orderly pull.told ?_
      cases pull.yields with
      | failed error => trivial
      | panicked payload => trivial
      | chunk data =>
          dsimp only
          split
          · exact ih
          · refine send_orderly ⟨rfl, trivial⟩ fun result => ?_
            rcases result with error | more
            · trivial
            · cases more
              · exact begun
              · exact ih

end RequestProgram

namespace StartResponse

/-- The head that is pending was built. -/
def PendsBuilt (start : StartResponse) : Prop :=
  ∀ head ∈ start.head, ∃ status headers, ResponseHead.Built status headers head

theorem new_pendsBuilt : new.PendsBuilt := nofun

/-- A call builds the head that it leaves pending, and does not send it. -/
theorem call_pends {start started : StartResponse} {status : String}
    {headers : List (String × String)} {excuse : Option AppError}
    (called : start.call status headers excuse = .ok started) :
    started.PendsBuilt ∧ started.headersSent = start.headersSent := by
  obtain ⟨head, accepted, rfl⟩ := call_ok called
  refine ⟨fun other pending => ?_, rfl⟩
  cases pending
  exact ⟨status, headers, ResponseHead.build_ok accepted⟩

/-- The head that is taken is the one that was pending, and it is known to be out. -/
theorem takeHead_built {start started : StartResponse} {head : ResponseHead}
    (built : start.PendsBuilt) (took : start.takeHead = .ok (head, started)) :
    (∃ status headers, ResponseHead.Built status headers head) ∧ started.PendsBuilt ∧
      started.headersSent = true := by
  rw [takeHead] at took
  split at took
  · cases took
  · rename_i pending
    cases took
    exact ⟨built head pending, built, rfl⟩

end StartResponse

namespace RequestProgram

theorem sendStream_orderly {start : StartResponse} (built : start.PendsBuilt)
    (first : Option Bytes) (length : BodyLength) (rest : List (Pull Call)) :
    (sendStream start first length rest : RequestProgram Call Answer).Orderly .start := by
  rw [sendStream]
  split
  · trivial
  · rename_i head started took
    have takes : Stage.start.Takes (.head head first length) .pieces :=
      ⟨rfl, (StartResponse.takeHead_built built took).1⟩
    refine send_orderly takes fun result => ?_
    rcases result with error | more
    · trivial
    · cases more
      · exact (by decide : Stage.pieces ≠ .start)
      · exact sendPulls_orderly rest

/-- A whole body comes with its head. -/
theorem sendWhole_orderly {start : StartResponse} (built : start.PendsBuilt)
    (body : ResponseBody Call) :
    (sendWhole start body : RequestProgram Call Answer).Orderly .start := by
  cases body with
  | file part =>
      simp only [sendWhole]
      split
      · trivial
      · rename_i took
        exact sendLast_orderly ⟨rfl, (StartResponse.takeHead_built built took).1⟩
          (by decide : Stage.over ≠ .start)
  | empty | full data =>
      simp only [sendWhole]
      split
      · trivial
      · rename_i took
        exact sendLast_orderly ⟨rfl, (StartResponse.takeHead_built built took).1⟩
          (by decide : Stage.pieces ≠ .start)
  | stream chunks =>
      simp only [sendWhole]
      split
      · exact sendStream_orderly built _ _ _
      · rename_i pull rest _
        refine tell_orderly pull.told ?_
        cases pull.yields with
        | failed error => trivial
        | panicked payload => trivial
        | chunk data => exact sendStream_orderly built _ _ _

/-- The rest of a body comes in pieces; a file cannot come behind a head. -/
theorem sendRest_orderly (body : ResponseBody Call) :
    (sendRest body : RequestProgram Call Answer).Orderly .pieces := by
  cases body with
  | empty => exact (by decide : Stage.pieces ≠ .start)
  | full data =>
      have takes : Stage.pieces.Takes (.chunk data) .pieces := ⟨rfl, trivial⟩
      exact sendLast_orderly takes (by decide)
  | stream chunks => exact sendPulls_orderly chunks.pulls
  | file part => trivial

end RequestProgram

namespace Handler

/-- The stage that the response started by an application is at. -/
def stageOf (start : StartResponse) : Stage := if start.headersSent then .pieces else .start

/-- **An application hands its answer over in order**, whatever it does with the response that
it was given. -/
theorem perform_orderly {start : StartResponse} (built : start.PendsBuilt)
    (handler : Handler Call Answer) : (handler.perform start).Orderly (stageOf start) := by
  induction handler generalizing start with
  | done body =>
      rw [perform, stageOf]
      split
      · exact RequestProgram.sendRest_orderly body
      · exact RequestProgram.sendWhole_orderly built body
  | fail error => trivial
  | panic payload => trivial
  | start status headers excuse next ih =>
      rw [perform]
      split
      · rename_i started called
        obtain ⟨pends, unsent⟩ := StartResponse.call_pends called
        have same : stageOf start = stageOf started := by
          rw [stageOf, stageOf, unsent]
        rw [same]
        exact ih _ pends
      · exact ih _ built
  | write data next ih =>
      rw [perform]
      split
      · rename_i sent
        have stage : stageOf start = .pieces := if_pos sent
        split
        · exact ih _ built
        · rw [stage]
          refine RequestProgram.send_orderly ⟨rfl, trivial⟩ fun result => ?_
          rw [← stage]
          exact ih _ built
      · rename_i pending
        split
        · exact ih _ built
        · rename_i head started took
          obtain ⟨isBuilt, pends, sent⟩ := StartResponse.takeHead_built built took
          have here : stageOf start = .start := if_neg pending
          have there : stageOf started = .pieces := if_pos sent
          have takes : ∀ first, Stage.start.Takes (.head head first .unknown) .pieces :=
            fun _ => ⟨rfl, isBuilt⟩
          rw [here]
          refine RequestProgram.send_orderly (takes _) fun result => ?_
          rw [← there]
          exact ih _ pends
  | headersSent next ih => exact ih _ built
  | suspend timeout next ih => exact fun result => ih result built
  | trampoline descriptor read write timeout next ih => exact fun result => ih result built
  | sleep time next ih => exact fun result => ih result built
  | call request next ih => exact fun answer => ih answer built

end Handler

/-! ## Tasks -/

namespace Task

/-- From a stage on, a task hands over only what may come. -/
def Orderly (stage : Stage) : Task Emit Call Answer → Prop
  | .fresh body => body.Orderly stage
  | .paused next => ∀ result, (next result).Orderly stage
  | .finished => True

theorem respond_orderly (application : Application Call Answer) (environ : Environ) :
    (Task.fresh (application.respond environ)).Orderly .start :=
  Handler.perform_orderly StartResponse.new_pendsBuilt (application environ)

/-- What holds of a task that gave control back. -/
def StepsOrderly (stage : Stage) (after : Task Emit Call Answer) : Step Emit → Prop
  | .suspended _ => after.Orderly stage
  | .yielded emit => ∃ later, stage.Takes emit later ∧ after.Orderly later
  | .completed => stage ≠ .start
  | .failed _ => True

/-- **A turn that does not give the task up keeps it in order.** -/
theorem switch_orderly {σ : Type} {host : Host Call Answer σ} {task after : Task Emit Call Answer}
    {resume : Resume} {before later : σ} {step : Step Emit} (orderly : task.Orderly stage)
    (goesOn : cancels resume = false)
    (ran : task.switch host resume before = (step, after, later)) :
    after.StepsOrderly stage step := by
  have stops : ∀ {stop : Stop Emit Call Answer}, Program.StopsOrderly stage stop →
      (atStop stop).2.StepsOrderly stage (atStop stop).1 := by
    intro stop orderly
    cases stop with
    | suspended wait next => exact orderly
    | yielded emit next => exact orderly
    | ended result =>
        cases result with
        | ok done => exact orderly
        | error error => trivial
  cases task with
  | finished =>
      cases ran
      trivial
  | fresh body =>
      simp only [switch, goesOn, Bool.false_eq_true, if_false] at ran
      cases ran
      exact stops (Program.run_orderly host orderly before)
  | paused next =>
      simp only [switch, goesOn] at ran
      cases ran
      exact stops (Program.run_orderly host (orderly _) _)

end Task

end EmbeddedHttp
