/-
# EmbeddedHttp.Proofs.Request.Extents -- how far the messages of a stream were read

A parser tells what a message says in order: it begins, then its head is told, then its body,
then its end (`Parser.run_inOrder`).  So of every message of a stream it is known whether its
head was read to the end, and whether some of its body came (`Extent`).  Both follow from the
octets alone, whatever is built of them.
-/
import EmbeddedHttp.Proofs.Request.Expectation
import EmbeddedHttp.Proofs.Request.Streams

namespace EmbeddedHttp

set_option autoImplicit false

/-- How far a message was read. -/
structure Extent where
  /-- Its head was read to the end. -/
  head : Bool
  /-- Some of its body came. -/
  body : Bool
  deriving DecidableEq, Repr

namespace Extent

/-- The message has begun. -/
def begun : Extent := ⟨false, false⟩

/-- The head was read, and nothing of a body came. -/
def bare : Extent := ⟨true, false⟩

/-- How far the message is read once something more of it is told. -/
def after (extent : Extent) : Event → Extent
  | .head _ => { extent with head := true }
  | .body bytes => { extent with body := extent.body || !bytes.isEmpty }
  | _ => extent

/-- The messages told of, once something more is told. -/
def tell (extents : List Extent) (event : Event) : List Extent :=
  if event = .begin then extents ++ [begun]
  else match extents.getLast? with
    | some last => extents.dropLast ++ [last.after event]
    | none => extents

/-- The messages told of, once some events more are told. -/
def tellAll (extents : List Extent) (events : List Event) : List Extent :=
  events.foldl tell extents

end Extent

/-- How far each message of what was heard was read. -/
def Received.extents (heard : List Received) : List Extent :=
  Extent.tellAll [] (Parser.idle.octets (stream heard)).1

namespace Extent

variable {extents before rest : List Extent} {last : Extent} {event : Event} {events : List Event}

@[simp] theorem tell_begin (extents : List Extent) : tell extents .begin = extents ++ [begun] :=
  rfl

/-- All but a beginning concerns the message that began last. -/
theorem tell_concat (before : List Extent) (last : Extent) {event : Event}
    (inside : event ≠ .begin) :
    tell (before ++ [last]) event = before ++ [last.after event] := by
  rw [tell, if_neg inside, List.getLast?_concat]
  simp only [List.dropLast_concat]

theorem tell_body (before : List Extent) (last : Extent) (data : Bytes) :
    tell (before ++ [last]) (.body data) = before ++ [last.after (.body data)] :=
  tell_concat before last (by rintro ⟨⟩)

@[simp] theorem tellAll_nil (extents : List Extent) : tellAll extents [] = extents := rfl

@[simp] theorem tellAll_cons (extents : List Extent) (event : Event) (events : List Event) :
    tellAll extents (event :: events) = tellAll (tell extents event) events := rfl

theorem tellAll_append (extents : List Extent) (events more : List Event) :
    tellAll extents (events ++ more) = tellAll (tellAll extents events) more :=
  List.foldl_append

/-! ## Pieces of body -/

theorem after_body (extent : Extent) (first rest : Bytes) :
    (extent.after (.body first)).after (.body rest) = extent.after (.body (first ++ rest)) := by
  cases first <;> simp [after]

/-- A piece of body tells the same when it is cut into its octets. -/
theorem tellAll_pieces (extents : List Extent) (data : Bytes) :
    tellAll extents (Event.pieces data) = tell extents (.body data) := by
  rcases List.eq_nil_or_concat extents with rfl | ⟨before, last, rfl⟩
  · -- without a message there is nothing to tell of
    have nothing : ∀ bytes, tell [] (.body bytes) = [] := fun _ => rfl
    induction data with
    | nil => rfl
    | cons b rest ih => rw [Event.pieces_cons, tellAll_cons, nothing, ih, nothing, nothing]
  · rw [List.concat_eq_append]
    induction data generalizing last with
    | nil =>
        rw [tell_body]
        simp [after]
    | cons b rest ih =>
        rw [Event.pieces_cons, tellAll_cons, tell_body, ih, tell_body, tell_body, after_body]
        rfl

theorem tellAll_split (extents : List Extent) (events : List Event) :
    tellAll extents (Event.split events) = tellAll extents events := by
  induction events generalizing extents with
  | nil => rfl
  | cons event rest ih =>
      have here : tellAll extents event.octets = tell extents event := by
        cases event with
        | body data => exact tellAll_pieces extents data
        | _ => rfl
      rw [Event.split_cons, tellAll_append, here, ih, tellAll_cons]

/-! ## Further -/

/-- A message was read at least as far. -/
structure Within (extent later : Extent) : Prop where
  head : extent.head = true → later.head = true
  body : extent.body = true → later.body = true

theorem within_after (extent : Extent) (event : Event) : extent.Within (extent.after event) := by
  cases event <;> constructor <;> simp_all [after]

/-- What is told takes nothing back, and concerns the message that began last. -/
theorem tellAll_within (events : List Event) {i : Nat} {extent : Extent}
    (found : extents[i]? = some extent) :
    ∃ later, (tellAll extents events)[i]? = some later ∧ extent.Within later ∧
      (i + 1 < extents.length → later = extent) := by
  induction events generalizing extents extent with
  | nil => exact ⟨extent, found, ⟨id, id⟩, fun _ => rfl⟩
  | cons event rest ih =>
      have told : ∃ between, (tell extents event)[i]? = some between ∧ extent.Within between ∧
          (i + 1 < extents.length → between = extent) ∧
          extents.length ≤ (tell extents event).length := by
        have inside := (List.getElem?_eq_some_iff.1 found).1
        by_cases begins : event = .begin
        · subst begins
          refine ⟨extent, ?_, ⟨id, id⟩, fun _ => rfl, by simp⟩
          rw [tell_begin, List.getElem?_append_left inside, found]
        · rcases List.eq_nil_or_concat extents with rfl | ⟨before, last, rfl⟩
          · cases inside
          · rw [List.concat_eq_append] at found inside ⊢
            rw [tell_concat _ _ begins]
            by_cases earlier : i < before.length
            · rw [List.getElem?_append_left earlier] at found ⊢
              exact ⟨extent, found, ⟨id, id⟩, fun _ => rfl, by simp⟩
            · have atEnd : i = before.length := by
                simp only [List.length_append, List.length_singleton] at inside
                omega
              subst atEnd
              rw [List.getElem?_concat_length] at found ⊢
              cases found
              exact ⟨_, rfl, within_after _ _, fun more => (by simp at more), by simp⟩
      obtain ⟨between, there, within, same, longer⟩ := told
      obtain ⟨later, foundLater, withinLater, sameLater⟩ := ih there
      refine ⟨later, foundLater, ⟨fun head => withinLater.head (within.head head),
        fun body => withinLater.body (within.body body)⟩, fun more => ?_⟩
      rw [sameLater (by omega), same more]

end Extent

/-! ## Events in order -/

namespace Event

/-- The event may come next: a message begins; or something of a head is told, of a message
that has only begun; or what comes behind a head, of a message whose head was read. -/
def Follows (extents : List Extent) (event : Event) : Prop :=
  event = .begin ∨ ∃ before last, extents = before ++ [last] ∧
    (event.isOfHead = true ∧ last = .begun ∨ event.isBehindHead = true ∧ last.head = true)

/-- Every event comes in its place. -/
def InOrder : List Extent → List Event → Prop
  | _, [] => True
  | extents, event :: rest => event.Follows extents ∧ InOrder (Extent.tell extents event) rest

theorem inOrder_nil (extents : List Extent) : InOrder extents [] := trivial

theorem inOrder_append {extents : List Extent} {events more : List Event} :
    InOrder extents (events ++ more) ↔
      InOrder extents events ∧ InOrder (Extent.tellAll extents events) more := by
  induction events generalizing extents with
  | nil => simp [InOrder]
  | cons event rest ih => simp [InOrder, ih, and_assoc]

/-- Messages that came earlier do not matter. -/
theorem InOrder.behind {extents : List Extent} {events : List Event}
    (inOrder : InOrder extents events) (earlier : List Extent) :
    Extent.tellAll (earlier ++ extents) events =
      earlier ++ Extent.tellAll extents events := by
  induction events generalizing extents with
  | nil => rfl
  | cons event rest ih =>
      obtain ⟨follows, further⟩ := inOrder
      have here : Extent.tell (earlier ++ extents) event =
          earlier ++ Extent.tell extents event := by
        by_cases begins : event = .begin
        · rw [begins, Extent.tell_begin, Extent.tell_begin, List.append_assoc]
        · obtain ⟨before, last, rfl, -⟩ := follows.resolve_left begins
          rw [← List.append_assoc, Extent.tell_concat _ _ begins, Extent.tell_concat _ _ begins,
            List.append_assoc]
      rw [Extent.tellAll_cons, Extent.tellAll_cons, here, ih further]

/-- Fields of a head, told one behind the other. -/
theorem inOrder_fields {events : List Event} (before : List Extent)
    (fields : ∀ e ∈ events, e.isOfHead = true ∧ Extent.begun.after e = .begun) :
    InOrder (before ++ [.begun]) events ∧
      Extent.tellAll (before ++ [.begun]) events = before ++ [.begun] := by
  induction events with
  | nil => exact ⟨trivial, rfl⟩
  | cons event rest ih =>
      obtain ⟨ofHead, same⟩ := fields event List.mem_cons_self
      have inside : event ≠ .begin := by
        rintro rfl
        cases ofHead
      have told : Extent.tell (before ++ [.begun]) event = before ++ [.begun] := by
        rw [Extent.tell_concat _ _ inside, same]
      obtain ⟨further, stays⟩ := ih fun e member => fields e (List.mem_cons_of_mem _ member)
      rw [InOrder, Extent.tellAll_cons, told]
      exact ⟨⟨.inr ⟨before, _, rfl, .inl ⟨ofHead, rfl⟩⟩, further⟩, stays⟩

end Event

namespace Parser

variable {parser : Parser} {extents before : List Extent}

/-- Where the parser is agrees with how far the last message was read. -/
def Reached (extents : List Extent) : Parser → Prop
  | .idle | .failed => True
  | .head _ _ => ∃ before, extents = before ++ [.begun]
  | .body _ | .chunked _ | .upgraded => ∃ before last, extents = before ++ [last] ∧
      last.head = true

/-- What a step tells comes in its place, and agrees with where it leads. -/
def Tells (extents : List Extent) (step : Step) : Prop :=
  Event.InOrder extents step.1 ∧ ∀ next taken, step.2 = .ok (next, taken) →
    next.Reached (Extent.tellAll extents step.1)

theorem tells_ok {events : List Event} {next : Parser} {taken : Nat}
    (inOrder : Event.InOrder extents events)
    (reached : next.Reached (Extent.tellAll extents events)) :
    Tells extents (events, .ok (next, taken)) := by
  refine ⟨inOrder, ?_⟩
  rintro _ _ ⟨⟩
  exact reached

theorem tells_error {events : List Event} {cause : ParseError}
    (inOrder : Event.InOrder extents events) : Tells extents (events, .error cause) := by
  refine ⟨inOrder, ?_⟩
  rintro _ _ ⟨⟩

theorem announceFields_fields (notes : Head.Notes) (fields : List (Bytes × Bytes)) :
    ∀ e ∈ (Head.announceFields notes fields).1,
      e.isOfHead = true ∧ Extent.begun.after e = .begun := by
  induction fields generalizing notes with
  | nil => exact fun e member => (by cases member)
  | cons field rest ih =>
      intro e member
      simp only [Head.announceFields] at member
      split at member
      · rcases List.mem_cons.1 member with rfl | member
        · exact ⟨rfl, rfl⟩
        · rw [List.mem_singleton.1 member]
          exact ⟨rfl, rfl⟩
      · rcases List.mem_cons.1 member with rfl | member
        · exact ⟨rfl, rfl⟩
        · rcases List.mem_cons.1 member with rfl | member
          · exact ⟨rfl, rfl⟩
          · exact ih _ e member

/-- A head is told field by field, and last that it is read to the end. -/
theorem announce_inOrder (raw : Head.Raw) (before : List Extent) :
    Event.InOrder (before ++ [.begun]) raw.announce.1 ∧
      ∀ facts, raw.announce.2 = .ok facts →
        Extent.tellAll (before ++ [.begun]) raw.announce.1 = before ++ [.bare] := by
  have fields : ∀ e ∈ .target raw.target ::
      (Head.announceFields Head.Notes.none raw.fields).1,
      e.isOfHead = true ∧ Extent.begun.after e = .begun := by
    intro e member
    rcases List.mem_cons.1 member with rfl | member
    · exact ⟨rfl, rfl⟩
    · exact announceFields_fields _ _ e member
  obtain ⟨inOrder, stays⟩ := Event.inOrder_fields before fields
  simp only [Head.Raw.announce]
  split
  · exact ⟨inOrder, by rintro _ ⟨⟩⟩
  · refine ⟨Event.inOrder_append.2 ⟨inOrder, ?_⟩, fun facts _ => ?_⟩
    · rw [stays]
      exact ⟨.inr ⟨before, _, rfl, .inl ⟨rfl, rfl⟩⟩, trivial⟩
    · rw [Extent.tellAll_append, stays, Extent.tellAll_cons, Extent.tellAll_nil]
      exact Extent.tell_concat before .begun (by rintro ⟨⟩)

/-- The end of a message whose head was read. -/
theorem complete_inOrder {last : Extent} (headRead : last.head = true) (before : List Extent) :
    Event.InOrder (before ++ [last]) [.complete] ∧
      Extent.tellAll (before ++ [last]) [.complete] = before ++ [last] := by
  constructor
  · exact ⟨.inr ⟨before, last, rfl, .inr ⟨rfl, headRead⟩⟩, trivial⟩
  · rw [Extent.tellAll_cons, Extent.tellAll_nil]
    exact Extent.tell_concat before last (by rintro ⟨⟩)

theorem afterHead_tells (raw : Head.Raw) (before : List Extent) :
    Tells (before ++ [.begun]) (afterHead raw) := by
  obtain ⟨inOrder, reads⟩ := announce_inOrder raw before
  simp only [afterHead]
  cases outcome : raw.announce.2 with
  | error cause => exact tells_error inOrder
  | ok facts =>
      have read := reads facts outcome
      obtain ⟨ends, still⟩ := complete_inOrder (show Extent.bare.head = true from rfl) before
      have ended : ∀ next : Parser, next.Reached (before ++ [.bare]) →
          Tells (before ++ [.begun]) (raw.announce.1 ++ [.complete], .ok (next, 0)) := by
        intro next reached
        refine tells_ok (Event.inOrder_append.2 ⟨inOrder, by rw [read]; exact ends⟩) ?_
        rw [Extent.tellAll_append, read, still]
        exact reached
      have goesOn : ∀ next : Parser, next.Reached (before ++ [.bare]) →
          Tells (before ++ [.begun]) (raw.announce.1, .ok (next, 0)) := by
        intro next reached
        refine tells_ok inOrder ?_
        rw [read]
        exact reached
      dsimp only
      split
      · exact ended _ ⟨before, _, rfl, rfl⟩
      · split
        · exact goesOn _ ⟨before, _, rfl, rfl⟩
        · exact goesOn _ ⟨before, _, rfl, rfl⟩
        · exact ended _ trivial

theorem headStep_tells (scan : Head.Scan) (size : Nat) (b : UInt8) (before : List Extent) :
    Tells (before ++ [.begun]) (headStep scan size b) := by
  simp only [headStep]
  cases scan.step b with
  | more next =>
      dsimp only
      split
      · exact tells_error (Event.inOrder_nil _)
      · exact tells_ok (Event.inOrder_nil _) ⟨before, rfl⟩
  | complete raw => exact afterHead_tells raw before
  | malformed cause => exact tells_error (Event.inOrder_nil _)
  | tooManyFields => exact tells_error (Event.inOrder_nil _)

/-- A piece of the body of a message whose head was read. -/
theorem body_inOrder {last : Extent} (headRead : last.head = true) (before : List Extent)
    (data : Bytes) :
    Event.InOrder (before ++ [last]) [.body data] ∧
      Extent.tellAll (before ++ [last]) [.body data] = before ++ [last.after (.body data)] :=
  ⟨⟨.inr ⟨before, last, rfl, .inr ⟨rfl, headRead⟩⟩, trivial⟩, Extent.tell_body before last data⟩

/-- **Every step tells what comes next.** -/
theorem step_tells (reached : parser.Reached extents) (b : UInt8) (rest : Bytes) :
    Tells extents (parser.step b rest) := by
  cases parser with
  | failed => exact tells_error (Event.inOrder_nil _)
  | idle =>
      simp only [step]
      split
      · exact tells_ok (Event.inOrder_nil _) trivial
      · obtain ⟨inOrder, leads⟩ := headStep_tells Head.Scan.start 0 b extents
        exact ⟨⟨.inl rfl, inOrder⟩, leads⟩
  | head scan size =>
      obtain ⟨before, rfl⟩ := reached
      exact headStep_tells scan size b before
  | body left =>
      obtain ⟨before, last, rfl, headRead⟩ := reached
      obtain ⟨inOrder, told⟩ := body_inOrder headRead before (b :: rest.take (left - 1))
      have stillRead : (last.after (.body (b :: rest.take (left - 1)))).head = true := headRead
      obtain ⟨ends, -⟩ := complete_inOrder stillRead before
      simp only [step]
      split
      · refine tells_ok ⟨inOrder.1, ?_⟩ trivial
        rw [Extent.tell_body]
        exact ends
      · exact tells_ok inOrder ⟨before, _, told, headRead⟩
  | chunked place =>
      obtain ⟨before, last, rfl, headRead⟩ := reached
      cases place with
      | data left =>
          obtain ⟨inOrder, told⟩ := body_inOrder headRead before (b :: rest.take (left - 1))
          exact tells_ok inOrder ⟨before, _, told, headRead⟩
      | _ =>
          simp only [step, chunkStep]
          split
          · exact tells_ok (Event.inOrder_nil _) ⟨before, last, rfl, headRead⟩
          · exact tells_ok (complete_inOrder headRead before).1 trivial
          · exact tells_error (Event.inOrder_nil _)
          · exact tells_error (Event.inOrder_nil _)
  | upgraded =>
      obtain ⟨before, last, rfl, headRead⟩ := reached
      obtain ⟨inOrder, told⟩ := body_inOrder headRead before (b :: rest)
      exact tells_ok inOrder ⟨before, _, told, headRead⟩

/-- **A parser tells what a message says in order**: that it begins, its head, what comes of
its body, its end. -/
theorem run_inOrder (reached : parser.Reached extents) (data : Bytes) :
    Event.InOrder extents (parser.run data).1 ∧ ∀ next, (parser.run data).2 = .ok next →
      next.Reached (Extent.tellAll extents (parser.run data).1) := by
  -- strong induction on what is left: a step inside a body takes many octets at once
  induction size : data.length using Nat.strongRecOn generalizing parser extents data with
  | ind n ih =>
      cases data with
      | nil =>
          rw [run_nil]
          refine ⟨trivial, ?_⟩
          rintro _ ⟨⟩
          exact reached
      | cons b rest =>
          obtain ⟨inOrder, leads⟩ := step_tells reached b rest
          rw [run_cons]
          rcases stepped : parser.step b rest with ⟨events, result⟩
          rw [stepped] at inOrder leads
          cases result with
          | error fault => exact ⟨inOrder, by rintro _ ⟨⟩⟩
          | ok after =>
              obtain ⟨next, taken⟩ := after
              have shorter : (rest.drop taken).length < n := by
                simp only [List.length_cons] at size
                simp only [List.length_drop]
                omega
              obtain ⟨further, ends⟩ := ih _ shorter (leads next taken rfl) _ rfl
              dsimp only [afterStep]
              rw [Extent.tellAll_append]
              exact ⟨Event.inOrder_append.2 ⟨inOrder, further⟩, ends⟩

end Parser

end EmbeddedHttp
