/-
# EmbeddedHttp.Proofs.Message.Octets -- a stream read octet by octet

`Parser.run` takes the data of a body in pieces as large as they arrive.  Here the
same stream is read one octet at a time (`Parser.octets`), so that reading is a
fold and splits wherever the stream does (`octets_append`).  Both ways of reading
end in the same parser or at the same fault, and tell the same events once every
piece of body is cut into single octets (`run_result`, `split_run_events`).

The heart is `octets_of_step`: whatever one step takes, octet by octet the same is
taken.  Only the three states that hold body data take more than one octet.
-/
import EmbeddedHttp.Message.Parser

namespace EmbeddedHttp

set_option autoImplicit false

/-! ## Pieces of body -/

namespace Event

/-- Is the event a piece of body? -/
def isBody : Event → Bool
  | .body _ => true
  | _ => false

/-- Does the event tell something of a head? -/
def isOfHead : Event → Bool
  | .target _ | .fieldName _ | .fieldValue _ | .head _ => true
  | _ => false

/-- Each octet of a body as a piece of its own. -/
def pieces (data : Bytes) : List Event := data.map fun b => .body [b]

/-- The event, a piece of body cut into single octets. -/
def octets : Event → List Event
  | .body data => pieces data
  | event => [event]

/-- The events, every piece of body cut into single octets. -/
def split (events : List Event) : List Event := events.flatMap octets

@[simp] theorem pieces_nil : pieces [] = [] := rfl

@[simp] theorem pieces_cons (b : UInt8) (data : Bytes) :
    pieces (b :: data) = .body [b] :: pieces data := rfl

@[simp] theorem split_nil : split [] = [] := rfl

@[simp] theorem split_cons (event : Event) (rest : List Event) :
    split (event :: rest) = event.octets ++ split rest := rfl

@[simp] theorem split_append (first second : List Event) :
    split (first ++ second) = split first ++ split second :=
  List.flatMap_append

theorem noBody_of_isOfHead {event : Event} (ofHead : event.isOfHead = true) :
    event.isBody = false := by
  cases event <;> first | rfl | cases ofHead

theorem octets_of_noBody {event : Event} (noBody : event.isBody = false) :
    event.octets = [event] := by
  cases event with
  | body data => simp [isBody] at noBody
  | _ => rfl

theorem split_of_noBody {events : List Event} (noBody : ∀ e ∈ events, e.isBody = false) :
    split events = events := by
  induction events with
  | nil => rfl
  | cons event rest ih =>
      have first := octets_of_noBody (noBody event List.mem_cons_self)
      have others := ih fun e member => noBody e (List.mem_cons_of_mem _ member)
      simp [first, others]

end Event

/-! ## Reading in sequence -/

namespace Parser

/-- What reading tells, and the parser afterwards or the fault at which it stopped. -/
abbrev Reading := List Event × Except ParseError Parser

/-- Read on behind a reading that met no fault. -/
def Reading.andThen (first : Reading) (next : Parser → Reading) : Reading :=
  match first.2 with
  | .ok parser => (first.1 ++ (next parser).1, (next parser).2)
  | .error fault => (first.1, .error fault)

@[simp] theorem Reading.andThen_ok (events : List Event) (parser : Parser)
    (next : Parser → Reading) :
    Reading.andThen (events, .ok parser) next =
      (events ++ (next parser).1, (next parser).2) := rfl

@[simp] theorem Reading.andThen_error (events : List Event) (fault : ParseError)
    (next : Parser → Reading) :
    Reading.andThen (events, .error fault) next = (events, .error fault) := rfl

/-- A step as a reading that goes on with what was not taken. -/
def afterStep (step : Step) (next : Parser → Nat → Reading) : Reading :=
  match step.2 with
  | .ok (parser, taken) => (step.1 ++ (next parser taken).1, (next parser taken).2)
  | .error fault => (step.1, .error fault)

/-- Read octets one at a time, so that each octet of a body is told on its own. -/
def octets (parser : Parser) : Bytes → Reading
  | [] => ([], .ok parser)
  | b :: rest => afterStep (parser.step b []) fun next _ => octets next rest

@[simp] theorem octets_nil (parser : Parser) : parser.octets [] = ([], .ok parser) := rfl

theorem octets_cons (parser : Parser) (b : UInt8) (rest : Bytes) :
    parser.octets (b :: rest) =
      afterStep (parser.step b []) fun next _ => next.octets rest := rfl

/-- **Reading octet by octet splits wherever the stream does.** -/
theorem octets_append (parser : Parser) (first second : Bytes) :
    parser.octets (first ++ second) = (parser.octets first).andThen (·.octets second) := by
  induction first generalizing parser with
  | nil => simp only [List.nil_append, octets_nil, Reading.andThen_ok]
  | cons b rest ih =>
      rw [List.cons_append, octets_cons, octets_cons]
      obtain ⟨events, result⟩ := parser.step b []
      cases result with
      | error fault => rfl
      | ok after =>
          obtain ⟨next, taken⟩ := after
          simp only [afterStep, ih]
          obtain ⟨further, outcome⟩ := next.octets rest
          cases outcome with
          | error fault => rfl
          | ok later => simp only [Reading.andThen_ok, List.append_assoc]

theorem octets_append_ok {parser next : Parser} {first second : Bytes} {events : List Event}
    (read : parser.octets first = (events, .ok next)) :
    parser.octets (first ++ second) =
      (events ++ (next.octets second).1, (next.octets second).2) := by
  rw [octets_append, read, Reading.andThen_ok]

/-! ## One step at a time -/

theorem runFrom_told (told : List Event) (parser : Parser) (data : Bytes) :
    parser.runFrom told data =
      (told.reverse ++ (parser.runFrom [] data).1, (parser.runFrom [] data).2) := by
  induction size : data.length using Nat.strongRecOn generalizing told parser data with
  | ind n ih =>
      cases data with
      | nil => simp [runFrom]
      | cons b rest =>
          have shorter : ∀ taken, (rest.drop taken).length < n := by
            intro taken
            simp only [List.length_cons] at size
            simp only [List.length_drop]
            omega
          rw [runFrom, runFrom]
          obtain ⟨events, result⟩ := parser.step b rest
          cases result with
          | error fault => simp
          | ok after =>
              obtain ⟨next, taken⟩ := after
              simp only
              rw [ih _ (shorter taken) (events.reverse ++ told) next _ rfl,
                ih _ (shorter taken) (events.reverse ++ []) next _ rfl]
              simp

@[simp] theorem run_nil (parser : Parser) : parser.run [] = ([], .ok parser) := by
  simp [run, runFrom]

theorem run_cons (parser : Parser) (b : UInt8) (rest : Bytes) :
    parser.run (b :: rest) =
      afterStep (parser.step b rest) fun next taken => next.run (rest.drop taken) := by
  rw [run, runFrom]
  obtain ⟨events, result⟩ := parser.step b rest
  cases result with
  | error fault => simp [afterStep]
  | ok after =>
      obtain ⟨next, taken⟩ := after
      simp only [afterStep, run]
      rw [runFrom_told]
      simp

/-! ## Only bodies tell body -/

theorem announceFields_ofHead (notes : Head.Notes) (fields : List (Bytes × Bytes)) :
    ∀ e ∈ (Head.announceFields notes fields).1, e.isOfHead = true := by
  induction fields generalizing notes with
  | nil => intro e member; simp [Head.announceFields] at member
  | cons field rest ih =>
      obtain ⟨name, value⟩ := field
      intro e member
      simp only [Head.announceFields] at member
      split at member
      · simp only [List.mem_cons, List.not_mem_nil, or_false] at member
        rcases member with rfl | rfl <;> rfl
      · simp only [List.mem_cons] at member
        rcases member with rfl | rfl | inRest
        · rfl
        · rfl
        · exact ih _ e inRest

theorem announce_ofHead (raw : Head.Raw) : ∀ e ∈ raw.announce.1, e.isOfHead = true := by
  intro e member
  have fields := announceFields_ofHead Head.Notes.none raw.fields
  simp only [Head.Raw.announce] at member
  split at member <;> simp only [List.mem_cons, List.mem_append, List.not_mem_nil, or_false]
    at member
  · rcases member with rfl | inFields
    · rfl
    · exact fields e inFields
  · rcases member with (rfl | inFields) | rfl
    · rfl
    · exact fields e inFields
    · rfl

theorem afterHead_noBody (raw : Head.Raw) : ∀ e ∈ (afterHead raw).1, e.isBody = false := by
  intro e member
  have announced : ∀ e ∈ raw.announce.1, e.isBody = false := fun e member =>
    Event.noBody_of_isOfHead (announce_ofHead raw e member)
  have ended : ∀ e ∈ raw.announce.1 ++ [.complete], e.isBody = false := by
    intro e member
    rcases List.mem_append.1 member with inHead | inEnd
    · exact announced e inHead
    · rw [List.mem_singleton.1 inEnd]; rfl
  simp only [afterHead] at member
  repeat' split at member
  all_goals first
    | exact announced e member
    | exact ended e member

theorem headStep_noBody (scan : Head.Scan) (size : Nat) (b : UInt8) :
    ∀ e ∈ (headStep scan size b).1, e.isBody = false := by
  intro e member
  simp only [headStep] at member
  repeat' split at member
  all_goals first
    | exact afterHead_noBody _ e member
    | simp at member

theorem chunkStep_noBody (place : Chunk.Place) (b : UInt8) :
    ∀ e ∈ (chunkStep place b).1, e.isBody = false := by
  intro e member
  simp only [chunkStep] at member
  split at member
  all_goals first
    | (rw [List.mem_singleton.1 member]; rfl)
    | simp at member

/-! ## What a step takes -/

/-- Data of a body that the length allows for. -/
theorem octets_body (left : Nat) (b : UInt8) (data : Bytes) (fits : data.length ≤ left - 1) :
    (Parser.body left).octets (b :: data) =
      if left ≤ data.length + 1 then (Event.pieces (b :: data) ++ [.complete], .ok .idle)
      else (Event.pieces (b :: data), .ok (.body (left - (data.length + 1)))) := by
  induction data generalizing b left with
  | nil =>
      rw [octets_cons]
      by_cases last : left ≤ 1 <;> simp [step, afterStep, last]
  | cons c rest ih =>
      have more : ¬ left ≤ 1 := by simp only [List.length_cons] at fits; omega
      have further := ih (left - 1) c (by simp only [List.length_cons] at fits; omega)
      have stepped : (Parser.body left).step b [] =
          ([.body [b]], .ok (.body (left - 1), left - 1)) := by simp [step, more]
      rw [octets_cons, stepped]
      simp only [afterStep, further, List.length_cons]
      by_cases last : left ≤ rest.length + 1 + 1
      · have : left - 1 ≤ rest.length + 1 := by omega
        simp [last, this]
      · have : ¬ left - 1 ≤ rest.length + 1 := by omega
        have same : left - 1 - (rest.length + 1) = left - (rest.length + 1 + 1) := by omega
        simp [last, this, same]

/-- Data of a chunk that its size allows for. -/
theorem octets_chunkData (left : Nat) (b : UInt8) (data : Bytes) (fits : data.length ≤ left - 1) :
    (Parser.chunked (.data left)).octets (b :: data) =
      (Event.pieces (b :: data),
        .ok (.chunked (Chunk.Place.afterData left (data.length + 1)))) := by
  induction data generalizing b left with
  | nil => rw [octets_cons]; simp [step, afterStep]
  | cons c rest ih =>
      have more : ¬ left ≤ 1 := by simp only [List.length_cons] at fits; omega
      have further := ih (left - 1) c (by simp only [List.length_cons] at fits; omega)
      have stepped : (Parser.chunked (.data left)).step b [] =
          ([.body [b]], .ok (.chunked (.data (left - 1)), left - 1)) := by
        simp [step, Chunk.Place.afterData, more]
      rw [octets_cons, stepped]
      simp only [afterStep, further, Chunk.Place.afterData, List.length_cons]
      by_cases last : left ≤ rest.length + 1 + 1
      · have : left - 1 ≤ rest.length + 1 := by omega
        simp [last, this]
      · have : ¬ left - 1 ≤ rest.length + 1 := by omega
        have same : left - 1 - (rest.length + 1) = left - (rest.length + 1 + 1) := by omega
        simp [last, this, same]

/-- Behind an upgrade everything is body. -/
theorem octets_upgraded (data : Bytes) :
    Parser.upgraded.octets data = (Event.pieces data, .ok .upgraded) := by
  induction data with
  | nil => rfl
  | cons b rest ih => rw [octets_cons]; simp [step, afterStep, ih]

/-- Does the next octet alone decide the step?  Not while body data is taken in pieces. -/
def isPlain : Parser → Bool
  | .body _ | .chunked (.data _) | .upgraded => false
  | _ => true

theorem step_of_plain {parser : Parser} (plain : parser.isPlain = true) (b : UInt8)
    (rest : Bytes) :
    parser.step b rest = parser.step b [] ∧
      (∀ e ∈ (parser.step b []).1, e.isBody = false) ∧
      ∀ next taken, (parser.step b []).2 = .ok (next, taken) → taken = 0 := by
  have none_taken : ∀ (scan : Head.Scan) (size : Nat) (next : Parser) (taken : Nat),
      (headStep scan size b).2 = .ok (next, taken) → taken = 0 := by
    intro scan size next taken stepped
    simp only [headStep, afterHead] at stepped
    repeat' split at stepped
    all_goals simp_all
  cases parser with
  | idle =>
      refine ⟨rfl, fun e member => ?_, fun next taken stepped => ?_⟩
      · simp only [step] at member
        split at member
        · simp at member
        · rcases List.mem_cons.1 member with rfl | inHead
          · rfl
          · exact headStep_noBody _ _ _ e inHead
      · simp only [step] at stepped
        split at stepped
        · simp_all
        · exact none_taken _ _ _ _ stepped
  | head scan size => exact ⟨rfl, headStep_noBody scan size b, none_taken scan size⟩
  | chunked place =>
      cases place with
      | data left => simp [isPlain] at plain
      | _ =>
          refine ⟨rfl, chunkStep_noBody _ b, fun next taken stepped => ?_⟩
          simp only [step, chunkStep] at stepped
          split at stepped <;> simp_all
  | failed => simp [step]
  | body left => simp [isPlain] at plain
  | upgraded => simp [isPlain] at plain

/-- Outside the data of a chunk a step takes one octet. -/
theorem step_outsideData {place : Chunk.Place} (outside : ∀ left, place ≠ .data left) (b : UInt8)
    (rest : Bytes) : (Parser.chunked place).step b rest = chunkStep place b := by
  cases place with
  | data left => exact absurd rfl (outside left)
  | _ => rfl

/-- **What one step takes is taken octet by octet as well.** -/
theorem octets_of_step {parser next : Parser} {b : UInt8} {rest : Bytes} {events : List Event}
    {taken : Nat} (stepped : parser.step b rest = (events, .ok (next, taken))) :
    parser.octets (b :: rest.take taken) = (Event.split events, .ok next) := by
  -- only inside a body does a step take more than its first octet
  by_cases plain : parser.isPlain = true
  · obtain ⟨alone, noBody, noneTaken⟩ := step_of_plain plain b rest
    rw [alone] at stepped
    rw [stepped] at noBody noneTaken
    have zero : taken = 0 := noneTaken next taken rfl
    subst zero
    rw [octets_cons, stepped, Event.split_of_noBody noBody]
    simp [afterStep]
  · cases parser with
    | body left =>
        have fits : (rest.take (left - 1)).length ≤ left - 1 := List.length_take_le _ _
        simp only [step, List.length_cons] at stepped
        by_cases last : left ≤ (rest.take (left - 1)).length + 1
        · simp only [last, if_true, Prod.mk.injEq, Except.ok.injEq] at stepped
          obtain ⟨rfl, rfl, rfl⟩ := stepped
          rw [octets_body left b _ fits, if_pos last]
          simp [Event.octets]
        · simp only [last, if_false, Prod.mk.injEq, Except.ok.injEq] at stepped
          obtain ⟨rfl, rfl, rfl⟩ := stepped
          rw [octets_body left b _ fits, if_neg last]
          simp [Event.octets]
    | chunked place =>
        cases place with
        | data left =>
            have fits : (rest.take (left - 1)).length ≤ left - 1 := List.length_take_le _ _
            simp only [step, List.length_cons, Prod.mk.injEq, Except.ok.injEq] at stepped
            obtain ⟨rfl, rfl, rfl⟩ := stepped
            rw [octets_chunkData left b _ fits]
            simp [Event.octets]
        | _ => exact absurd rfl plain
    | upgraded =>
        simp only [step, Prod.mk.injEq, Except.ok.injEq] at stepped
        obtain ⟨rfl, rfl, rfl⟩ := stepped
        rw [List.take_length, octets_upgraded]
        simp [Event.octets]
    | _ => exact absurd rfl plain

/-- A step that meets a fault meets it at its first octet. -/
theorem octets_of_fault {parser : Parser} {b : UInt8} {rest : Bytes} {events : List Event}
    {fault : ParseError} (stepped : parser.step b rest = (events, .error fault)) :
    parser.octets (b :: rest) = (Event.split events, .error fault) := by
  have plain : parser.isPlain = true := by
    cases parser with
    | body left =>
        simp only [step] at stepped
        split at stepped <;> simp at stepped
    | chunked place =>
        cases place with
        | data left => simp [step] at stepped
        | _ => rfl
    | upgraded => simp [step] at stepped
    | _ => rfl
  obtain ⟨alone, noBody, -⟩ := step_of_plain plain b rest
  rw [alone] at stepped
  rw [stepped] at noBody
  rw [octets_cons, stepped, Event.split_of_noBody noBody]
  rfl

/-- **Reading in pieces as large as they come is reading octet by octet**: the same
parser or fault in the end, and the same events up to the cuts of the body. -/
theorem octets_eq_run (parser : Parser) (data : Bytes) :
    parser.octets data = (Event.split (parser.run data).1, (parser.run data).2) := by
  induction size : data.length using Nat.strongRecOn generalizing parser data with
  | ind n ih =>
      cases data with
      | nil => simp
      | cons b rest =>
          rw [run_cons]
          cases stepped : parser.step b rest with
          | mk events result =>
            cases result with
            | error fault => rw [octets_of_fault stepped]; rfl
            | ok after =>
                obtain ⟨next, taken⟩ := after
                have shorter : (rest.drop taken).length < n := by
                  simp only [List.length_cons] at size
                  simp only [List.length_drop]
                  omega
                -- the stream is cut where the step ended, which is where `run` goes on
                have whole : b :: rest = (b :: rest.take taken) ++ rest.drop taken := by
                  rw [List.cons_append, List.take_append_drop]
                rw [whole, octets_append_ok (octets_of_step stepped), ih _ shorter next _ rfl]
                simp [afterStep]

end Parser

end EmbeddedHttp
