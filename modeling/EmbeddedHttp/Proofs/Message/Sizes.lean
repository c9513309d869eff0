/-
# EmbeddedHttp.Proofs.Message.Sizes -- nothing told is longer than what was read

What a head tells is kept while the head is read, octet by octet, and a head is bounded: so no
name, no value and no target is longer than a head may be (`Parser.runAll_within`).  What is told
of bodies are octets of the stream, so all of it together is no longer than the stream
(`Parser.runAll_bodySizes`), and each piece of it no longer than the piece in which it came
(`Parser.runAll_bodySize`).
-/
import EmbeddedHttp.Proofs.Request.Heads

namespace EmbeddedHttp

set_option autoImplicit false

/-! ## Heads -/

namespace Head

/-- No field is longer than this. -/
def FieldsWithin (size : Nat) (fields : List (Bytes × Bytes)) : Prop :=
  ∀ field ∈ fields, field.1.length ≤ size ∧ field.2.length ≤ size

/-- Nothing that the scan keeps is longer than this. -/
structure Scan.Within (size : Nat) (scan : Scan) : Prop where
  target : scan.target.length ≤ size
  name : scan.name.length ≤ size
  part : scan.part.length ≤ size
  fields : FieldsWithin size scan.fields

theorem FieldsWithin.mono {size larger : Nat} {fields : List (Bytes × Bytes)}
    (within : FieldsWithin size fields) (le : size ≤ larger) : FieldsWithin larger fields :=
  fun field member =>
    ⟨Nat.le_trans (within field member).1 le, Nat.le_trans (within field member).2 le⟩

namespace Scan

variable {size : Nat} {scan next : Scan} {b : UInt8}

theorem within_start (size : Nat) : start.Within size :=
  ⟨Nat.zero_le _, Nat.zero_le _, Nat.zero_le _, nofun⟩

theorem Within.mono {larger : Nat} (within : scan.Within size) (le : size ≤ larger) :
    scan.Within larger :=
  ⟨Nat.le_trans within.target le, Nat.le_trans within.name le, Nat.le_trans within.part le,
    within.fields.mono le⟩

/-- One octet more of the part at hand. -/
theorem Within.keep (within : scan.Within size) (place : Place) (b : UInt8) :
    (scan.keep place b).Within (size + 1) :=
  ⟨Nat.le_succ_of_le within.target, Nat.le_succ_of_le within.name, Nat.succ_le_succ within.part,
    within.fields.mono (Nat.le_succ _)⟩

/-- The field that ends has a value no longer than the part at hand. -/
theorem Within.endField (within : scan.Within size) (ended : scan.endField = .more next) :
    next.Within size := by
  have trimmed := (List.dropWhile_suffix (l := scan.part) isSpacing).length_le
  rw [Scan.endField] at ended
  split at ended
  · cases ended
  · cases ended
    refine ⟨within.target, Nat.zero_le _, Nat.zero_le _,
      List.forall_mem_cons.2 ⟨⟨within.name, ?_⟩, within.fields⟩⟩
    show ((scan.part.dropWhile isSpacing).reverse).length ≤ size
    rw [List.length_reverse]
    exact Nat.le_trans trimmed within.part

/-- What an octet behind which the head goes on does to the scan: it is kept, it is passed over,
or it ends what was being read. -/
inductive Turn (scan : Scan) (b : UInt8) : Scan → Prop
  | keeps (place : Place) : Turn scan b (scan.keep place b)
  | passes (place : Place) (version : Version) :
      Turn scan b { scan with place := place, version := version }
  | endsMethod :
      Turn scan b { scan with place := .target, method := scan.part.reverse, part := [] }
  | endsTarget :
      Turn scan b { scan with
        place := .version versionStem, target := scan.part.reverse, part := [] }
  | endsName :
      Turn scan b { scan with place := .beforeValue, name := scan.part.reverse, part := [] }
  | endsField {next : Scan} (ended : scan.endField = .more next) : Turn scan b next

theorem turn_of_step (stepped : scan.step b = .more next) : Turn scan b next := by
  unfold Scan.step at stepped
  repeat' split at stepped
  all_goals first
    | exact .endsField stepped
    | cases stepped
  all_goals first
    | exact .keeps _
    | exact .passes _ _
    | exact .endsMethod
    | exact .endsTarget
    | exact .endsName

/-- What is complete is the head that was kept. -/
theorem head_of_step {raw : Raw} (stepped : scan.step b = .complete raw) : raw = scan.head := by
  have ended : scan.endField ≠ .complete raw := by
    intro ended
    rw [Scan.endField] at ended
    split at ended <;> cases ended
  unfold Scan.step at stepped
  repeat' split at stepped
  all_goals first
    | exact absurd stepped ended
    | cases stepped
  all_goals rfl

/-- One octet more is kept at most. -/
theorem Within.step (within : scan.Within size) (stepped : scan.step b = .more next) :
    next.Within (size + 1) := by
  have reversed : scan.part.reverse.length ≤ size := by
    rw [List.length_reverse]
    exact within.part
  cases turn_of_step stepped with
  | keeps place => exact within.keep place b
  | passes place version =>
      exact Within.mono ⟨within.target, within.name, within.part, within.fields⟩ (Nat.le_succ size)
  | endsMethod =>
      exact Within.mono ⟨within.target, within.name, Nat.zero_le _, within.fields⟩
        (Nat.le_succ size)
  | endsTarget =>
      exact Within.mono ⟨reversed, within.name, Nat.zero_le _, within.fields⟩ (Nat.le_succ size)
  | endsName =>
      exact Within.mono ⟨within.target, reversed, Nat.zero_le _, within.fields⟩ (Nat.le_succ size)
  | endsField ended => exact (within.endField ended).mono (Nat.le_succ size)

/-- A complete head tells what was kept. -/
theorem Within.complete (within : scan.Within size) {raw : Raw}
    (stepped : scan.step b = .complete raw) :
    raw.target.length ≤ size ∧ FieldsWithin size raw.fields := by
  obtain rfl := head_of_step stepped
  exact ⟨within.target, fun field member => within.fields field (List.mem_reverse.1 member)⟩

end Scan

end Head

/-- What the event tells of a head is no longer than this. -/
def Event.Within (size : Nat) : Event → Prop
  | .target bytes | .fieldName bytes | .fieldValue bytes => bytes.length ≤ size
  | _ => True

namespace Parser

variable {parser : Parser} {size : Nat}

theorem announceFields_within (notes : Head.Notes) {fields : List (Bytes × Bytes)}
    (within : Head.FieldsWithin size fields) :
    ∀ event ∈ (Head.announceFields notes fields).1, event.Within size := by
  induction fields generalizing notes with
  | nil => exact nofun
  | cons field rest ih =>
      obtain ⟨⟨name, value⟩, others⟩ := List.forall_mem_cons.1 within
      unfold Head.announceFields
      split
      · exact List.forall_mem_cons.2 ⟨name, List.forall_mem_singleton.2 value⟩
      · exact List.forall_mem_cons.2 ⟨name, List.forall_mem_cons.2 ⟨value, ih _ others⟩⟩

theorem announce_within {raw : Head.Raw} (target : raw.target.length ≤ size)
    (fields : Head.FieldsWithin size raw.fields) :
    ∀ event ∈ raw.announce.1, event.Within size := by
  have told := announceFields_within Head.Notes.none fields
  simp only [Head.Raw.announce]
  split
  · exact List.forall_mem_cons.2 ⟨target, told⟩
  · refine List.forall_mem_append.2 ⟨List.forall_mem_cons.2 ⟨target, told⟩, ?_⟩
    exact List.forall_mem_singleton.2 trivial

/-- A head that is being read is no longer than a head may be, and neither is what is kept. -/
def HeadWithin : Parser → Prop
  | .head scan size => scan.Within size ∧ size ≤ Head.maxSize
  | _ => True

/-- What holds of a step: what it tells of a head, and how it goes on. -/
def StepWithin (step : Step) : Prop :=
  (∀ event ∈ step.1, event.Within Head.maxSize) ∧
    ∀ next taken, step.2 = .ok (next, taken) → next.HeadWithin

theorem StepWithin.fault {events : List Event} {fault : ParseError}
    (told : ∀ event ∈ events, event.Within Head.maxSize) :
    StepWithin (events, .error fault) :=
  ⟨told, nofun⟩

theorem StepWithin.goesOn {events : List Event} {next : Parser} {taken : Nat}
    (told : ∀ event ∈ events, event.Within Head.maxSize) (within : next.HeadWithin) :
    StepWithin (events, .ok (next, taken)) := by
  refine ⟨told, ?_⟩
  rintro _ _ ⟨⟩
  exact within

theorem headStep_within {scan : Head.Scan} (within : scan.Within size) (fits : size ≤ Head.maxSize)
    (b : UInt8) : StepWithin (headStep scan size b) := by
  unfold headStep
  split
  · rename_i next stepped
    split
    · exact .fault (List.forall_mem_nil _)
    · exact .goesOn (List.forall_mem_nil _) ⟨within.step stepped, by omega⟩
  · rename_i raw stepped
    obtain ⟨target, fields⟩ := within.complete stepped
    have told := announce_within (Nat.le_trans target fits) (fields.mono fits)
    have ended : ∀ event ∈ raw.announce.1 ++ [.complete], event.Within Head.maxSize :=
      List.forall_mem_append.2 ⟨told, List.forall_mem_singleton.2 trivial⟩
    simp only [afterHead]
    split
    · exact .fault told
    · split
      · exact .goesOn ended trivial
      · split
        · exact .goesOn told trivial
        · exact .goesOn told trivial
        · exact .goesOn ended trivial
  · exact .fault (List.forall_mem_nil _)
  · exact .fault (List.forall_mem_nil _)

theorem step_within (within : parser.HeadWithin) (b : UInt8) (rest : Bytes) :
    StepWithin (parser.step b rest) := by
  cases parser with
  | failed => exact .fault (List.forall_mem_nil _)
  | idle =>
      simp only [step]
      split
      · exact .goesOn (List.forall_mem_nil _) trivial
      · obtain ⟨told, leads⟩ := headStep_within (Head.Scan.within_start 0) (Nat.zero_le _) b
        exact ⟨List.forall_mem_cons.2 ⟨trivial, told⟩, leads⟩
  | head scan size => exact headStep_within within.1 within.2 b
  | body left =>
      simp only [step]
      split <;> exact .goesOn (by simp [Event.Within]) trivial
  | chunked place =>
      cases place with
      | data left => exact .goesOn (List.forall_mem_singleton.2 trivial) trivial
      | _ =>
          simp only [step, chunkStep]
          split
          · exact .goesOn (List.forall_mem_nil _) trivial
          · exact .goesOn (List.forall_mem_singleton.2 trivial) trivial
          · exact .fault (List.forall_mem_nil _)
          · exact .fault (List.forall_mem_nil _)
  | upgraded => exact .goesOn (List.forall_mem_singleton.2 trivial) trivial

/-- **Nothing that is told of a head is longer than a head may be.** -/
theorem runAll_within (pieces : List Bytes) :
    ∀ event ∈ (runAll pieces .idle).1, event.Within Head.maxSize := by
  let inv (told : List Event) (result : Except ParseError Parser) : Prop :=
    (∀ event ∈ told, event.Within Head.maxSize) ∧ ∀ parser, result = .ok parser → parser.HeadWithin
  have steps : ∀ told parser b rest, inv told (.ok parser) →
      inv (told ++ (step parser b rest).1) ((step parser b rest).2.map Prod.fst) := by
    rintro told parser b rest ⟨before, within⟩
    obtain ⟨here, leads⟩ := step_within (within parser rfl) b rest
    refine ⟨List.forall_mem_append.2 ⟨before, here⟩, ?_⟩
    rcases stepped : (step parser b rest).2 with fault | ⟨next, taken⟩
    · rintro _ ⟨⟩
    · rintro _ ⟨⟩
      exact leads next taken stepped
  have start : inv [] (.ok .idle) := ⟨nofun, by rintro _ ⟨⟩; trivial⟩
  exact (runAll_invariant steps start pieces).1

end Parser

/-! ## Bodies -/

namespace Event

/-- How many octets of a body the event tells. -/
def bodySize : Event → Nat
  | .body bytes => bytes.length
  | _ => 0

/-- How many octets of bodies the events tell. -/
def bodySizes : List Event → Nat
  | [] => 0
  | event :: rest => event.bodySize + bodySizes rest

@[simp] theorem bodySizes_nil : bodySizes [] = 0 := rfl

@[simp] theorem bodySizes_cons (event : Event) (rest : List Event) :
    bodySizes (event :: rest) = event.bodySize + bodySizes rest := rfl

@[simp] theorem bodySizes_append (first second : List Event) :
    bodySizes (first ++ second) = bodySizes first + bodySizes second := by
  induction first with
  | nil => rw [List.nil_append, bodySizes_nil, Nat.zero_add]
  | cons event rest ih => rw [List.cons_append, bodySizes_cons, ih, bodySizes_cons, Nat.add_assoc]

theorem bodySizes_of_noBody {events : List Event} (noBody : ∀ e ∈ events, e.isBody = false) :
    bodySizes events = 0 := by
  induction events with
  | nil => rfl
  | cons event rest ih =>
      obtain ⟨here, others⟩ := List.forall_mem_cons.1 noBody
      rw [bodySizes_cons, ih others]
      cases event with
      | body bytes => cases here
      | _ => rfl

theorem bodySizes_pieces (data : Bytes) : bodySizes (pieces data) = data.length := by
  induction data with
  | nil => rfl
  | cons b rest ih =>
      rw [pieces_cons, bodySizes_cons, ih, List.length_cons, Nat.add_comm]
      rfl

/-- Cutting bodies into octets changes nothing of how many there are. -/
theorem bodySizes_split (events : List Event) : bodySizes (split events) = bodySizes events := by
  induction events with
  | nil => rfl
  | cons event rest ih =>
      rw [split_cons, bodySizes_append, ih, bodySizes_cons]
      cases event with
      | body data => rw [octets, bodySizes_pieces, bodySize]
      | _ => rfl

theorem bodySize_le {event : Event} {events : List Event} (member : event ∈ events) :
    event.bodySize ≤ bodySizes events := by
  obtain ⟨before, after, rfl⟩ := List.append_of_mem member
  rw [bodySizes_append, bodySizes_cons]
  omega

end Event

namespace Parser

open Event (bodySizes bodySizes_of_noBody)

/-- Of one octet no more than itself is told. -/
theorem step_bodySizes (parser : Parser) (b : UInt8) : bodySizes (parser.step b []).1 ≤ 1 := by
  by_cases plain : parser.isPlain = true
  · obtain ⟨-, noBody, -⟩ := step_of_plain plain b []
    rw [bodySizes_of_noBody noBody]
    exact Nat.zero_le 1
  cases parser with
  | body left =>
      simp only [step]
      split <;> simp [Event.bodySize]
  | chunked place =>
      cases place with
      | data left => simp [step, Event.bodySize]
      | _ => exact absurd rfl plain
  | upgraded => simp [step, Event.bodySize]
  | _ => exact absurd rfl plain

theorem octets_bodySizes (parser : Parser) (data : Bytes) :
    bodySizes (parser.octets data).1 ≤ data.length := by
  induction data generalizing parser with
  | nil => exact Nat.zero_le _
  | cons b rest ih =>
      have here := step_bodySizes parser b
      rw [octets_cons, List.length_cons]
      generalize parser.step b [] = step at here ⊢
      obtain ⟨events, fault | ⟨next, taken⟩⟩ := step
      · exact Nat.le_trans here (Nat.succ_le_succ (Nat.zero_le _))
      · have later := ih next
        show bodySizes (events ++ (next.octets rest).1) ≤ rest.length + 1
        rw [Event.bodySizes_append, Nat.add_comm]
        exact Nat.add_le_add later here

/-- **No more is told of bodies than was read.** -/
theorem runAll_bodySizes (pieces : List Bytes) (parser : Parser) :
    bodySizes (runAll pieces parser).1 ≤ pieces.flatten.length := by
  have told := octets_bodySizes parser pieces.flatten
  rwa [octets_flatten, Event.bodySizes_split] at told

theorem run_bodySizes (parser : Parser) (piece : Bytes) :
    bodySizes (parser.run piece).1 ≤ piece.length := by
  have told := octets_bodySizes parser piece
  rwa [octets_eq_run, Event.bodySizes_split] at told

/-- **What is told of a body at once came in one piece.** -/
theorem runAll_bodySize {pieces : List Bytes} {parser : Parser} {event : Event}
    (told : event ∈ (runAll pieces parser).1) :
    ∃ piece ∈ pieces, event.bodySize ≤ piece.length := by
  induction pieces generalizing parser with
  | nil => cases told
  | cons piece rest ih =>
      have here : ∀ event ∈ (parser.run piece).1, event.bodySize ≤ piece.length :=
        fun event member => Nat.le_trans (Event.bodySize_le member) (run_bodySizes parser piece)
      rw [runAll] at told
      generalize parser.run piece = read at told here
      obtain ⟨events, fault | next⟩ := read
      · exact ⟨piece, List.mem_cons_self, here event told⟩
      · rcases List.mem_append.1 told with first | later
        · exact ⟨piece, List.mem_cons_self, here event first⟩
        · obtain ⟨other, member, le⟩ := ih later
          exact ⟨other, List.mem_cons_of_mem _ member, le⟩

end Parser

end EmbeddedHttp
