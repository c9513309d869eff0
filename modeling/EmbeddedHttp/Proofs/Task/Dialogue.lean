/-
# EmbeddedHttp.Proofs.Task.Dialogue -- code in dialogue with whatever answers it

What code does depends on what it is told: the answers to its calls, and what its suspension
points give.  Against a partner that has an answer to everything (`Partner`) code comes to its
end, and what it called and handed over on the way is a dialogue (`Program.dialogue`).  A turn
that a task is given is a stretch of such a dialogue (`Program.run_dialogue`), and turn after
turn up to the end makes a whole one (`Program.Conducted.inDialogue`), so what holds of the
dialogues with all partners holds of all that a task does.
-/
import EmbeddedHttp.Task.Program

namespace EmbeddedHttp

set_option autoImplicit false

variable {Item Call : Type} {Answer : Call → Type} {σ : Type}

/-! ## Dialogues -/

/-- One line of a dialogue: a call, or something handed over and the reply to it. -/
inductive Line (Item Call : Type) where
  | asks (request : Call)
  | hands (item : Item) (reply : Except TaskError Unit)

namespace Line

/-- The call in a line. -/
def request? : Line Item Call → Option Call
  | .asks request => some request
  | .hands _ _ => none

/-- What a line hands over. -/
def item? : Line Item Call → Option Item
  | .asks _ => none
  | .hands item _ => some item

/-- Nothing in the line was answered with an error. -/
def Accepted : Line Item Call → Prop
  | .asks _ => True
  | .hands _ reply => reply = .ok ()

end Line

/-- What code did, in order, and what it ended with. -/
structure Dialogue (Item Call : Type) where
  lines : List (Line Item Call)
  result : Except AppError Unit

namespace Dialogue

/-- The calls made, in order. -/
def requests (dialogue : Dialogue Item Call) : List Call := dialogue.lines.filterMap Line.request?

/-- All that was handed over, in order, be it accepted or not. -/
def items (dialogue : Dialogue Item Call) : List Item := dialogue.lines.filterMap Line.item?

/-- Everything that was handed over was accepted. -/
def Accepted (dialogue : Dialogue Item Call) : Prop := ∀ line ∈ dialogue.lines, line.Accepted

/-- The dialogue with some lines before it. -/
def behind (dialogue : Dialogue Item Call) (lines : List (Line Item Call)) :
    Dialogue Item Call :=
  { dialogue with lines := lines ++ dialogue.lines }

variable (dialogue : Dialogue Item Call) (calls : List Call) (item : Item)
  (reply : Except TaskError Unit) (result : Except AppError Unit)

theorem behind_behind (first second : List (Line Item Call)) :
    (dialogue.behind second).behind first = dialogue.behind (first ++ second) := by
  simp [behind]

@[simp] theorem behind_result (lines : List (Line Item Call)) :
    (dialogue.behind lines).result = dialogue.result := rfl

theorem items_behind (lines : List (Line Item Call)) :
    (dialogue.behind lines).items = lines.filterMap Line.item? ++ dialogue.items :=
  List.filterMap_append

@[simp] theorem requests_asks :
    (dialogue.behind (calls.map .asks)).requests = calls ++ dialogue.requests := by
  simp [requests, behind, List.filterMap_append, List.filterMap_map, Function.comp_def,
    Line.request?]

@[simp] theorem items_asks : (dialogue.behind (calls.map .asks)).items = dialogue.items := by
  simp [items, behind, List.filterMap_append, List.filterMap_map, Function.comp_def, Line.item?]

@[simp] theorem accepted_asks :
    (dialogue.behind (calls.map .asks)).Accepted ↔ dialogue.Accepted := by
  have calling : ∀ line ∈ calls.map (@Line.asks Item Call), line.Accepted := by
    simp [Line.Accepted]
  rw [Accepted, behind, List.forall_mem_append]
  exact and_iff_right calling

@[simp] theorem requests_hands :
    (dialogue.behind [.hands item reply]).requests = dialogue.requests := rfl

@[simp] theorem items_hands :
    (dialogue.behind [.hands item reply]).items = item :: dialogue.items := rfl

@[simp] theorem accepted_hands :
    (dialogue.behind [.hands item reply]).Accepted ↔ reply = .ok () ∧ dialogue.Accepted := by
  simp [Accepted, behind, Line.Accepted]

end Dialogue

/-- The other side of a dialogue: what it answers when it is called for the n-th time, and
what it gives at the n-th suspension point. -/
structure Partner (Call : Type) (Answer : Call → Type) where
  answer : Nat → (request : Call) → Answer request
  reply : Nat → Except TaskError (Option Payload)

namespace Partner

/-- The partner once it answered a call. -/
def answered (partner : Partner Call Answer) : Partner Call Answer :=
  { partner with answer := fun n => partner.answer (n + 1) }

/-- The partner once it replied at a suspension point. -/
def replied (partner : Partner Call Answer) : Partner Call Answer :=
  { partner with reply := fun n => partner.reply (n + 1) }

/-- A partner that first answers a call, and goes on as another. -/
def answering (answer : (request : Call) → Answer request) (later : Partner Call Answer) :
    Partner Call Answer :=
  { later with answer := fun
      | 0 => answer
      | n + 1 => later.answer n }

/-- A partner that first replies at a suspension point, and goes on as another. -/
def replying (reply : Except TaskError (Option Payload)) (later : Partner Call Answer) :
    Partner Call Answer :=
  { later with reply := fun
      | 0 => reply
      | n + 1 => later.reply n }

end Partner

namespace Program

/-- What code does when it deals with a partner. -/
def dialogue : Program Item Call Answer → Partner Call Answer → Dialogue Item Call
  | .finish result, _ => ⟨[], result⟩
  | .panic payload, _ => ⟨[], .error payload.toError⟩
  | .suspend _ next, partner => (next (partner.reply 0)).dialogue partner.replied
  | .trampoline _ _ _ _ next, partner =>
      (next (discard (partner.reply 0))).dialogue partner.replied
  | .sleep _ next, partner => (next (discard (partner.reply 0))).dialogue partner.replied
  | .emit item next, partner =>
      let reply := discard (partner.reply 0)
      ((next reply).dialogue partner.replied).behind [.hands item reply]
  | .call request next, partner =>
      ((next (partner.answer 0 request)).dialogue partner.answered).behind [.asks request]

/-! ## Turns -/

/-- Some dialogue of the code begins with these lines and goes on as `rest` does. -/
def Continues (program : Program Item Call Answer) (lines : List (Line Item Call))
    (rest : Dialogue Item Call) : Prop :=
  ∃ partner, program.dialogue partner = rest.behind lines

/-- A turn that stopped so did the lines of a dialogue that goes on from there, whatever the
code is told next. -/
def StopsWithin (program : Program Item Call Answer) (lines : List (Line Item Call)) :
    Stop Item Call Answer → Prop
  | .ended result => program.Continues lines ⟨[], result⟩
  | .suspended _ next => ∀ reply partner,
      program.Continues lines ((next reply).dialogue partner)
  | .yielded item next => ∀ reply partner,
      program.Continues (lines ++ [.hands item (discard reply)]) ((next reply).dialogue partner)

variable {program next : Program Item Call Answer} {lines : List (Line Item Call)}
  {stop : Stop Item Call Answer}

/-- Lines come before those of a turn. -/
theorem StopsWithin.before {first : List (Line Item Call)} (within : next.StopsWithin lines stop)
    (before : ∀ partner, program.Continues first (next.dialogue partner)) :
    program.StopsWithin (first ++ lines) stop := by
  have continues : ∀ {later rest}, next.Continues later rest →
      program.Continues (first ++ later) rest := by
    rintro later rest ⟨partner, same⟩
    obtain ⟨whole, begins⟩ := before partner
    exact ⟨whole, by rw [begins, same, Dialogue.behind_behind]⟩
  cases stop with
  | ended result => exact continues within
  | suspended wait further => exact fun reply partner => continues (within reply partner)
  | yielded item further =>
      intro reply partner
      rw [List.append_assoc]
      exact continues (within reply partner)

/-- What a turn of the code comes to is a stretch of a dialogue, and nothing but calls unless
the task is given up. -/
def Stretches (program : Program Item Call Answer) (cancelled : Bool)
    (stop : Stop Item Call Answer) : Prop :=
  ∃ lines, program.StopsWithin lines stop ∧
    (cancelled = false → ∀ line ∈ lines, ∃ request, line = .asks request)

/-- A suspension point gives control up, or fails at once and goes on. -/
theorem stretches_of_suspension {cancelled : Bool} (host : Host Call Answer σ) (wait : Wait)
    (state : TaskState) (point : Continuation Item Call Answer) (s : σ)
    (gives : ∀ reply partner, program.Continues [] ((point reply).dialogue partner))
    (fails : ∀ error s, (point (.error error)).Stretches cancelled
      (run host cancelled (point (.error error)) s).1) :
    program.Stretches cancelled
      (if host.state s = .running then
        if cancelled then run host cancelled (point (.error .cancelled)) (host.setState .running s)
        else (.suspended wait point, host.setState state s)
      else run host cancelled (point (.error .alreadySuspended)) s).1 := by
  split
  · split
    · obtain ⟨lines, within, calls⟩ := fails .cancelled (host.setState .running s)
      exact ⟨lines, within.before (gives _), calls⟩
    · exact ⟨[], gives, by simp⟩
  · obtain ⟨lines, within, calls⟩ := fails .alreadySuspended s
    exact ⟨lines, within.before (gives _), calls⟩

/-- **A turn is a stretch of a dialogue.** -/
theorem run_dialogue (host : Host Call Answer σ) (cancelled : Bool)
    (program : Program Item Call Answer) (s : σ) :
    program.Stretches cancelled (program.run host cancelled s).1 := by
  have anyone : Partner Call Answer :=
    ⟨fun _ request => (host.answer request s).1, fun _ => .ok none⟩
  -- where running goes on without a stop, so does the dialogue with one more reply or answer
  induction program generalizing s with
  | finish result => exact ⟨[], ⟨anyone, rfl⟩, by simp⟩
  | panic payload => exact ⟨[], ⟨anyone, rfl⟩, by simp⟩
  | suspend timeout next ih =>
      exact stretches_of_suspension host (Wait.suspend timeout) .suspended next s
        (fun reply partner => ⟨partner.replying reply, rfl⟩) fun error s => ih _ s
  | trampoline descriptor read write timeout next ih =>
      exact stretches_of_suspension host
        (Wait.io descriptor (Interest.ofFlags read write) timeout) .waiting
        (fun reply => next (discard reply)) s
        (fun reply partner => ⟨partner.replying reply, rfl⟩) fun error s => ih _ s
  | sleep time next ih =>
      exact stretches_of_suspension host (Wait.sleep time) .waiting
        (fun reply => next (discard reply)) s
        (fun reply partner => ⟨partner.replying reply, rfl⟩) fun error s => ih _ s
  | emit item next ih =>
      rw [run]
      split
      · rename_i cancels
        obtain ⟨lines, within, calls⟩ := ih (.error .cancelled) (host.setState .running s)
        have refused : ∀ partner, (Program.emit item next).Continues
            [.hands item (.error .cancelled)] ((next (.error .cancelled)).dialogue partner) :=
          fun partner => ⟨partner.replying (.error .cancelled), rfl⟩
        exact ⟨_, within.before refused, by simp [cancels]⟩
      · exact ⟨[], fun reply partner => ⟨partner.replying reply, rfl⟩, by simp⟩
  | call request next ih =>
      rw [run]
      obtain ⟨lines, within, calls⟩ :=
        ih (host.answer request s).1 (host.answer request s).2
      have called : ∀ partner, (Program.call request next).Continues [.asks request]
          ((next (host.answer request s).1).dialogue partner) := fun partner =>
        ⟨partner.answering fun request => (host.answer request s).1, rfl⟩
      refine ⟨_, within.before called, fun goesOn line member => ?_⟩
      rcases List.mem_append.1 member with first | later
      · exact ⟨request, List.mem_singleton.1 first⟩
      · exact calls goesOn line later

/-- Code is run turn after turn up to its end: what the turns yielded, and the result.  What
the code is told in between, and what has become of the state, may be anything. -/
inductive Conducted (host : Host Call Answer σ) :
    Program Item Call Answer → List Item → Except AppError Unit → Prop where
  | ended {program : Program Item Call Answer} {cancelled : Bool} {s : σ}
      {result : Except AppError Unit} (ran : (program.run host cancelled s).1 = .ended result) :
      Conducted host program [] result
  | suspended {program : Program Item Call Answer} {cancelled : Bool} {s : σ} {wait : Wait}
      {next : Continuation Item Call Answer} {items : List Item} {result : Except AppError Unit}
      (ran : (program.run host cancelled s).1 = .suspended wait next)
      (reply : Except TaskError (Option Payload))
      (rest : Conducted host (next reply) items result) : Conducted host program items result
  | yielded {program : Program Item Call Answer} {cancelled : Bool} {s : σ} {item : Item}
      {next : Continuation Item Call Answer} {items : List Item} {result : Except AppError Unit}
      (ran : (program.run host cancelled s).1 = .yielded item next)
      (reply : Except TaskError (Option Payload))
      (rest : Conducted host (next reply) items result) :
      Conducted host program (item :: items) result

/-- **All turns make a dialogue.**  What they yielded was handed over in it, in that order; a
task that was given up may have tried to hand over more, and was refused at once. -/
theorem Conducted.inDialogue {host : Host Call Answer σ} {items : List Item}
    {result : Except AppError Unit} (conducted : Conducted host program items result) :
    ∃ partner, (program.dialogue partner).result = result ∧
      items.Sublist (program.dialogue partner).items := by
  induction conducted with
  | @ended program cancelled s result ran =>
      obtain ⟨lines, within, -⟩ := run_dialogue host cancelled program s
      rw [ran] at within
      obtain ⟨partner, same⟩ := within
      exact ⟨partner, by rw [same, Dialogue.behind_result], List.nil_sublist _⟩
  | @suspended program cancelled s wait next items result ran reply rest ih =>
      obtain ⟨lines, within, -⟩ := run_dialogue host cancelled program s
      rw [ran] at within
      obtain ⟨partner, ends, sub⟩ := ih
      obtain ⟨whole, same⟩ := within reply partner
      refine ⟨whole, by rw [same, Dialogue.behind_result, ends], ?_⟩
      rw [same, Dialogue.items_behind]
      exact sub.trans (List.sublist_append_right _ _)
  | @yielded program cancelled s item next items result ran reply rest ih =>
      obtain ⟨lines, within, -⟩ := run_dialogue host cancelled program s
      rw [ran] at within
      obtain ⟨partner, ends, sub⟩ := ih
      obtain ⟨whole, same⟩ := within reply partner
      refine ⟨whole, by rw [same, Dialogue.behind_result, ends], ?_⟩
      rw [same, Dialogue.items_behind, List.filterMap_append, List.append_assoc]
      exact (sub.cons_cons item).trans (List.sublist_append_right _ _)

end Program

end EmbeddedHttp
