/-
# EmbeddedHttp.Proofs.Request.Heads -- what stands before the end of a head, and behind it

A parser tells a head at once, when it is read to its end.  So right before the end of a head
stand the beginning of its message and its fields (`Parser.runAll_announced`), and behind it
comes no more body than the head declares, and all of that before the message is complete
(`Parser.runAll_behind`).  Both are invariants of reading: what one step keeps, pieces read
one after the other keep (`Parser.runAll_invariant`).
-/
import EmbeddedHttp.Proofs.Message.Cuts
import EmbeddedHttp.Proofs.Request.Extents

namespace EmbeddedHttp

set_option autoImplicit false

namespace Parser

/-! ## Invariants of reading -/

section Invariants

variable {inv : List Event → Except ParseError Parser → Prop} {told : List Event} {parser : Parser}

/-- What each step keeps, reading keeps. -/
theorem run_invariant
    (steps : ∀ told parser b rest, inv told (.ok parser) →
      inv (told ++ (step parser b rest).1) ((step parser b rest).2.map Prod.fst))
    (holds : inv told (.ok parser)) (data : Bytes) :
    inv (told ++ (parser.run data).1) (parser.run data).2 := by
  -- strong induction on what is left: a step inside a body takes many octets at once
  induction size : data.length using Nat.strongRecOn generalizing told parser data with
  | ind n ih =>
      cases data with
      | nil => rwa [run_nil, List.append_nil]
      | cons b rest =>
          have stepped := steps told parser b rest holds
          rw [run_cons]
          generalize parser.step b rest = taking at stepped ⊢
          obtain ⟨events, result⟩ := taking
          cases result with
          | error fault => exact stepped
          | ok after =>
              obtain ⟨next, taken⟩ := after
              have shorter : (rest.drop taken).length < n := by
                simp only [List.length_cons] at size
                simp only [List.length_drop]
                omega
              have further := ih _ shorter stepped _ rfl
              rwa [List.append_assoc] at further

/-- So do pieces read one after the other. -/
theorem runAll_invariant
    (steps : ∀ told parser b rest, inv told (.ok parser) →
      inv (told ++ (step parser b rest).1) ((step parser b rest).2.map Prod.fst))
    (holds : inv told (.ok parser)) (pieces : List Bytes) :
    inv (told ++ (runAll pieces parser).1) (runAll pieces parser).2 := by
  induction pieces generalizing told parser with
  | nil => rwa [runAll, List.append_nil]
  | cons piece rest ih =>
      have first := run_invariant steps holds piece
      rw [runAll]
      generalize parser.run piece = read at first ⊢
      obtain ⟨events, result⟩ := read
      cases result with
      | error fault => exact first
      | ok next =>
          rw [Reading.andThen_ok, ← List.append_assoc]
          exact ih first

end Invariants

/-! ## Before the end of a head -/

/-- Every head in what was told was announced: right before its end stand the beginning of its
message and its fields. -/
def HeadsAnnounced (told : List Event) : Prop :=
  ∀ before facts, before ++ [.head facts] <+: told →
    ∃ earlier, ∃ raw : Head.Raw, before ++ [.head facts] = earlier ++ .begin :: raw.announce.1 ∧
      raw.announce.2 = .ok facts

theorem HeadsAnnounced.append {told events : List Event} (announced : HeadsAnnounced told)
    (others : ∀ e ∈ events, ∀ facts, e ≠ .head facts) : HeadsAnnounced (told ++ events) := by
  induction events generalizing told with
  | nil => rwa [List.append_nil]
  | cons event rest ih =>
      have here : HeadsAnnounced (told ++ [event]) := by
        intro before facts front
        rcases List.prefix_concat_iff.1 front with same | earlier
        · exact absurd (List.append_inj' same rfl).2 fun last =>
            others event List.mem_cons_self facts (List.cons.inj last).1.symm
        · exact announced before facts earlier
      have all := ih here fun e member => others e (List.mem_cons_of_mem _ member)
      rwa [List.append_assoc] at all

/-- Only the last event of an announcement is a head, and only if there is no fault. -/
theorem announce_split (raw : Head.Raw) :
    ∃ fields : List Event, (∀ e ∈ fields, ∀ facts, e ≠ .head facts) ∧
      ((∃ cause, raw.announce = (fields, .error cause)) ∨
        ∃ facts, raw.announce = (fields ++ [.head facts], .ok facts)) := by
  refine ⟨.target raw.target :: (Head.announceFields Head.Notes.none raw.fields).1, ?_, ?_⟩
  · intro e member facts same
    rcases List.mem_cons.1 member with rfl | member
    · cases same
    · obtain ⟨-, still⟩ := announceFields_fields _ _ e member
      rw [same] at still
      cases still
  · rw [Head.Raw.announce]
    cases (Head.announceFields Head.Notes.none raw.fields).2 with
    | error cause => exact .inl ⟨cause, rfl⟩
    | ok notes => exact .inr ⟨_, rfl⟩

/-- An announcement behind the beginning of its message, and perhaps the end of it. -/
theorem HeadsAnnounced.announce {told : List Event} (announced : HeadsAnnounced told)
    (raw : Head.Raw) (ending : List Event) (others : ∀ e ∈ ending, ∀ facts, e ≠ .head facts) :
    HeadsAnnounced (told ++ .begin :: (raw.announce.1 ++ ending)) := by
  rw [← List.cons_append, ← List.append_assoc]
  refine HeadsAnnounced.append ?_ others
  obtain ⟨fields, plain, split⟩ := announce_split raw
  have begun : HeadsAnnounced (told ++ .begin :: fields) := by
    refine announced.append fun e member => ?_
    rcases List.mem_cons.1 member with rfl | member
    · rintro _ ⟨⟩
    · exact plain e member
  rcases split with ⟨cause, same⟩ | ⟨facts, same⟩
  · rwa [same]
  · intro before other front
    rw [same, ← List.cons_append, ← List.append_assoc] at front
    rcases List.prefix_concat_iff.1 front with ends | earlier
    · obtain ⟨-, last⟩ := List.append_inj' ends rfl
      cases last
      refine ⟨told, raw, ?_, by rw [same]⟩
      rw [ends, same, List.append_assoc, List.cons_append]
    · exact begun before other earlier

/-- What was told, and where it led: every head was announced, and a message whose head is read
has only begun. -/
structure Announced (told : List Event) (result : Except ParseError Parser) : Prop where
  heads : HeadsAnnounced told
  begun : ∀ scan size, result = .ok (.head scan size) → ∃ earlier, told = earlier ++ [.begin]

/-- Behind the beginning of a message, one octet of its head. -/
theorem headStep_announced {told : List Event} (scan : Head.Scan) (size : Nat) (b : UInt8)
    (announced : HeadsAnnounced told) :
    Announced (told ++ .begin :: (headStep scan size b).1)
      ((headStep scan size b).2.map Prod.fst) := by
  have quiet : HeadsAnnounced (told ++ [.begin]) := announced.append (by simp)
  have failed : ∀ fault : ParseError, Announced (told ++ [.begin]) (.error fault) := fun fault =>
    ⟨quiet, by rintro _ _ ⟨⟩⟩
  simp only [headStep]
  cases scan.step b with
  | more next =>
      dsimp only
      split
      · exact failed _
      · exact ⟨quiet, fun _ _ _ => ⟨told, rfl⟩⟩
  | malformed cause => exact failed _
  | tooManyFields => exact failed _
  | complete raw =>
      have whole := announced.announce raw [] (by simp)
      have ended := announced.announce raw [.complete] (by simp)
      rw [List.append_nil] at whole
      simp only [afterHead]
      split
      · exact ⟨whole, by rintro _ _ ⟨⟩⟩
      · split
        · exact ⟨ended, by rintro _ _ ⟨⟩⟩
        · split
          · exact ⟨whole, by rintro _ _ ⟨⟩⟩
          · exact ⟨whole, by rintro _ _ ⟨⟩⟩
          · exact ⟨ended, by rintro _ _ ⟨⟩⟩

theorem step_announced {told : List Event} {parser : Parser} (b : UInt8) (rest : Bytes)
    (announced : Announced told (.ok parser)) :
    Announced (told ++ (parser.step b rest).1) ((parser.step b rest).2.map Prod.fst) := by
  have behind : ∀ {events : List Event} {result : Except ParseError Parser},
      (∀ e ∈ events, ∀ facts, e ≠ .head facts) → (∀ scan size, result ≠ .ok (.head scan size)) →
      Announced (told ++ events) result := fun others outside =>
    ⟨announced.heads.append others, fun scan size same => absurd same (outside scan size)⟩
  cases parser with
  | failed => exact behind (by simp [step]) (by rintro _ _ ⟨⟩)
  | idle =>
      simp only [step]
      split
      · exact behind (by simp) (by rintro _ _ ⟨⟩)
      · exact headStep_announced Head.Scan.start 0 b announced.heads
  | head scan size =>
      obtain ⟨earlier, rfl⟩ := announced.begun scan size rfl
      have before : HeadsAnnounced earlier := fun front facts is =>
        announced.heads front facts (is.trans (List.prefix_append _ _))
      rw [List.append_assoc]
      exact headStep_announced scan size b before
  | body left =>
      simp only [step]
      split <;> exact behind (by simp) (by rintro _ _ ⟨⟩)
  | chunked place =>
      cases place with
      | data left => exact behind (by simp [step]) (by rintro _ _ ⟨⟩)
      | _ =>
          simp only [step, chunkStep]
          split <;> exact behind (by simp) (by rintro _ _ ⟨⟩)
  | upgraded => exact behind (by simp [step]) (by rintro _ _ ⟨⟩)

/-- **Every head of a stream stands behind the beginning of its message**, as it was
announced. -/
theorem runAll_announced {pieces : List Bytes} {before rest : List Event} {facts : HeadFacts}
    (told : (runAll pieces .idle).1 = before ++ .head facts :: rest) :
    ∃ earlier, ∃ raw : Head.Raw, before ++ [.head facts] = earlier ++ .begin :: raw.announce.1 ∧
      raw.announce.2 = .ok facts := by
  have start : Announced [] (.ok .idle) := by
    refine ⟨fun before facts front => ?_, by rintro _ _ ⟨⟩⟩
    exact absurd (List.prefix_nil.1 front) (by simp)
  have all := runAll_invariant (fun _ _ b rest => step_announced b rest) start pieces
  refine all.heads before facts ⟨rest, ?_⟩
  rw [List.nil_append, told, List.append_assoc, List.singleton_append]

end Parser

/-! ## Behind the end of a head -/

/-- The octets of body that belong to the message, if the head tells how many. -/
def HeadFacts.bodyLength (facts : HeadFacts) : Option Nat :=
  match facts.framing with
  | .none => some 0
  | .length n => some n
  | .chunked => none

/-- What is to be told next. -/
inductive Event.Due where
  /-- That a message begins. -/
  | message
  /-- More of a head. -/
  | head
  /-- More of a body, of which this is left if the head told, or that it ends. -/
  | body (left : Option Nat)
  /-- What comes behind an upgrade. -/
  | anything
  deriving DecidableEq, Repr

/-- What is due behind a head. -/
def HeadFacts.due (facts : HeadFacts) : Event.Due :=
  if facts.upgrade then .anything else .body facts.bodyLength

theorem HeadFacts.due_ne_head (facts : HeadFacts) : facts.due ≠ .head := by
  rw [due]
  split <;> rintro ⟨⟩

namespace Event.Due

/-- What is due once something more is told. -/
def after : Due → Event → Due
  | _, .begin => .head
  | _, .head facts => facts.due
  | .body left, .body bytes => .body (left.map (· - bytes.length))
  | .body _, .complete => .message
  | due, _ => due

/-- Is the event due?  No more of a body is than is left, and its end not before nothing is. -/
def Allows : Due → Event → Prop
  | .message, .begin => True
  | .head, event => event.isOfHead = true
  | .body left, .body bytes => ∀ n ∈ left, bytes.length ≤ n
  | .body left, .complete => ∀ n ∈ left, n = 0
  | .anything, event => event.isBehindHead = true
  | _, _ => False

/-- Every event is due when it is told. -/
def AllowsAll : Due → List Event → Prop
  | _, [] => True
  | due, event :: rest => due.Allows event ∧ (due.after event).AllowsAll rest

variable {due : Due} {event : Event} {events more : List Event}

/-- Once a head was read, what belongs to its message comes behind it, or another one begins. -/
theorem Allows.behindHead (allowed : due.Allows event) (headRead : due ≠ .head) :
    event = .begin ∨ event.isBehindHead = true ∧ due.after event ≠ .head := by
  cases due with
  | head => exact absurd rfl headRead
  | message =>
      cases event with
      | begin => exact .inl rfl
      | _ => cases allowed
  | body left =>
      cases event with
      | body bytes => exact .inr ⟨rfl, by rintro ⟨⟩⟩
      | complete => exact .inr ⟨rfl, by rintro ⟨⟩⟩
      | _ => cases allowed
  | anything =>
      cases event with
      | body bytes => exact .inr ⟨rfl, by rintro ⟨⟩⟩
      | complete => exact .inr ⟨rfl, by rintro ⟨⟩⟩
      | _ => cases allowed

theorem allowsAll_append :
    due.AllowsAll (events ++ more) ↔
      due.AllowsAll events ∧ (events.foldl after due).AllowsAll more := by
  induction events generalizing due with
  | nil => simp [AllowsAll]
  | cons event rest ih => simp [AllowsAll, ih, and_assoc]

/-- A head up to its end. -/
theorem allowsAll_fields (fields : ∀ e ∈ events, e.isOfHead = true ∧ ∀ facts, e ≠ .head facts) :
    Due.head.AllowsAll events ∧ events.foldl after .head = .head := by
  induction events with
  | nil => exact ⟨trivial, rfl⟩
  | cons event rest ih =>
      obtain ⟨ofHead, noEnd⟩ := fields event List.mem_cons_self
      obtain ⟨further, same⟩ := ih fun e member => fields e (List.mem_cons_of_mem _ member)
      have still : Due.head.after event = .head := by
        cases event with
        | head facts => exact absurd rfl (noEnd facts)
        | _ => rfl
      rw [AllowsAll, List.foldl_cons, still]
      exact ⟨⟨ofHead, further⟩, same⟩

/-- Pieces of body that are due leave the rest of it due. -/
theorem AllowsAll.bodies {left : Option Nat} {bodies : List Bytes} {rest : List Event}
    (allowed : (Due.body left).AllowsAll (bodies.map .body ++ rest)) :
    (∀ n ∈ left, bodies.flatten.length ≤ n) ∧
      (Due.body (left.map (· - bodies.flatten.length))).AllowsAll rest := by
  induction bodies generalizing left with
  | nil => exact ⟨fun n _ => Nat.zero_le n, by cases left <;> exact allowed⟩
  | cons first others ih =>
      obtain ⟨fits, further⟩ := allowed
      obtain ⟨most, behind⟩ := ih further
      rw [Option.map_map] at behind
      simp only [Function.comp_def, Nat.sub_sub] at behind
      rw [List.flatten_cons, List.length_append]
      refine ⟨fun n known => ?_, behind⟩
      have within : first.length ≤ n := fits n known
      have rest := most (n - first.length) (Option.mem_map_of_mem _ known)
      omega

end Event.Due

namespace Parser

open Event (Due)

/-- What is due agrees with where the parser is. -/
def Awaits (due : Due) : Parser → Prop
  | .idle => due = .message
  | .head _ _ => due = .head
  | .body n => due = .body (some n) ∧ 0 < n
  | .chunked _ => due = .body none
  | .upgraded => due = .anything
  | .failed => True

/-- What was told, and where it led: every event was due, and the parser knows what is. -/
structure InTurn (told : List Event) (result : Except ParseError Parser) : Prop where
  allowed : Due.message.AllowsAll told
  awaits : ∀ parser, result = .ok parser → parser.Awaits (told.foldl Due.after .message)

section Steps

variable {told events : List Event} {result later : Except ParseError Parser} {due : Due}

theorem InTurn.append (inTurn : InTurn told result) (here : told.foldl Due.after .message = due)
    (allowed : due.AllowsAll events)
    (awaits : ∀ parser, later = .ok parser → parser.Awaits (events.foldl Due.after due)) :
    InTurn (told ++ events) later := by
  subst here
  exact ⟨Due.allowsAll_append.2 ⟨inTurn.allowed, allowed⟩, by rwa [List.foldl_append]⟩

/-- A head, and the parser that reads what comes behind it. -/
theorem afterHead_inTurn (raw : Head.Raw) (inTurn : InTurn told result)
    (here : told.foldl Due.after .message = .head) :
    InTurn (told ++ (afterHead raw).1) ((afterHead raw).2.map Prod.fst) := by
  obtain ⟨fields, plain, split⟩ := announce_split raw
  have ofHead : ∀ e ∈ fields, e.isOfHead = true := by
    intro e member
    refine announce_ofHead raw e ?_
    rcases split with ⟨cause, same⟩ | ⟨facts, same⟩ <;> rw [same]
    · exact member
    · exact List.mem_append_left _ member
  obtain ⟨allowed, same⟩ := Due.allowsAll_fields fun e member => ⟨ofHead e member, plain e member⟩
  rcases split with ⟨cause, announced⟩ | ⟨facts, announced⟩
  · simp only [afterHead, announced]
    exact inTurn.append here allowed (by rintro _ ⟨⟩)
  · have read : ∀ next : Parser, next.Awaits facts.due →
        InTurn (told ++ (fields ++ [.head facts])) (.ok next) := by
      intro next awaits
      refine inTurn.append here (Due.allowsAll_append.2 ⟨allowed, ?_⟩) ?_
      · rw [same]
        exact ⟨rfl, trivial⟩
      · rintro _ ⟨⟩
        rw [List.foldl_append]
        exact awaits
    have ended : ∀ next : Parser, facts.due.Allows .complete →
        next.Awaits (facts.due.after .complete) →
        InTurn (told ++ (fields ++ [.head facts] ++ [.complete])) (.ok next) := by
      intro next empty awaits
      rw [List.append_assoc]
      refine inTurn.append here (Due.allowsAll_append.2 ⟨allowed, ?_⟩) ?_
      · rw [same]
        exact ⟨rfl, empty, trivial⟩
      · rintro _ ⟨⟩
        rw [List.foldl_append]
        exact awaits
    simp only [afterHead, announced]
    split
    · rename_i upgrade
      have due : facts.due = .anything := if_pos upgrade
      exact ended _ (by rw [due]; rfl) (by rw [due]; rfl)
    · rename_i plain
      have due : facts.due = .body facts.bodyLength := if_neg plain
      split
      · rename_i framing
        exact read _ (by simp [due, HeadFacts.bodyLength, framing, Awaits])
      · rename_i n framing
        exact read _ (by simp [due, HeadFacts.bodyLength, framing, Awaits])
      · rename_i notChunked notMore
        have empty : facts.bodyLength = some 0 := by
          rw [HeadFacts.bodyLength]
          cases framing : facts.framing with
          | none => rfl
          | chunked => exact absurd framing notChunked
          | length n =>
              cases n with
              | zero => rfl
              | succ n => exact absurd framing (notMore n)
        exact ended _ (by simp [due, empty, Due.Allows]) (by rw [due]; rfl)

theorem headStep_inTurn (scan : Head.Scan) (size : Nat) (b : UInt8) (inTurn : InTurn told result)
    (here : told.foldl Due.after .message = .head) :
    InTurn (told ++ (headStep scan size b).1) ((headStep scan size b).2.map Prod.fst) := by
  have failed : ∀ fault : ParseError, InTurn (told ++ []) (.error fault) := fun fault =>
    inTurn.append here trivial (by rintro _ ⟨⟩)
  simp only [headStep]
  cases scan.step b with
  | more next =>
      dsimp only
      split
      · exact failed _
      · exact inTurn.append here trivial (by rintro _ ⟨⟩; rfl)
  | complete raw => exact afterHead_inTurn raw inTurn here
  | malformed cause => exact failed _
  | tooManyFields => exact failed _

theorem step_inTurn {parser : Parser} (b : UInt8) (rest : Bytes)
    (inTurn : InTurn told (.ok parser)) :
    InTurn (told ++ (parser.step b rest).1) ((parser.step b rest).2.map Prod.fst) := by
  have here := inTurn.awaits parser rfl
  cases parser with
  | failed => exact inTurn.append rfl trivial (by rintro _ ⟨⟩)
  | idle =>
      simp only [step]
      split
      · exact inTurn.append here trivial (by rintro _ ⟨⟩; rfl)
      · have begun : InTurn (told ++ [.begin]) (.ok (.head Head.Scan.start 0)) :=
          inTurn.append here ⟨trivial, trivial⟩ (by rintro _ ⟨⟩; rfl)
        have first := headStep_inTurn Head.Scan.start 0 b begun (begun.awaits _ rfl)
        rwa [List.append_assoc] at first
  | head scan size => exact headStep_inTurn scan size b inTurn here
  | body left =>
      obtain ⟨here, positive⟩ := here
      have within : (b :: rest.take (left - 1)).length ≤ left := by
        simp only [List.length_cons, List.length_take]
        omega
      have fits : (Due.body (some left)).Allows (.body (b :: rest.take (left - 1))) := by
        rintro _ ⟨⟩
        exact within
      simp only [step]
      split
      · rename_i last
        refine inTurn.append here ⟨fits, ?_, trivial⟩ (by rintro _ ⟨⟩; rfl)
        rintro _ ⟨⟩
        exact Nat.sub_eq_zero_of_le last
      · refine inTurn.append here ⟨fits, trivial⟩ ?_
        rintro _ ⟨⟩
        exact ⟨rfl, by omega⟩
  | chunked place =>
      have fits : ∀ data, (Due.body none).Allows (.body data) := by rintro _ _ ⟨⟩
      have ends : (Due.body none).Allows .complete := by rintro _ ⟨⟩
      cases place with
      | data left => exact inTurn.append here ⟨fits _, trivial⟩ (by rintro _ ⟨⟩; rfl)
      | _ =>
          simp only [step, chunkStep]
          split
          · exact inTurn.append here trivial (by rintro _ ⟨⟩; rfl)
          · exact inTurn.append here ⟨ends, trivial⟩ (by rintro _ ⟨⟩; rfl)
          · exact inTurn.append here trivial (by rintro _ ⟨⟩)
          · exact inTurn.append here trivial (by rintro _ ⟨⟩)
  | upgraded => exact inTurn.append here ⟨rfl, trivial⟩ (by rintro _ ⟨⟩; rfl)

end Steps

/-- **Every event of a stream is due when it is told.** -/
theorem runAll_inTurn (pieces : List Bytes) :
    Due.message.AllowsAll (runAll pieces .idle).1 := by
  have start : InTurn [] (.ok .idle) := ⟨trivial, by rintro _ ⟨⟩; rfl⟩
  exact (runAll_invariant (fun _ _ b rest => step_inTurn b rest) start pieces).allowed

/-- What is told behind a head: no more octets of body than it tells, and all of them before
the message is complete, which only another message follows. -/
theorem runAll_behind {pieces bodies : List Bytes} {before rest : List Event} {facts : HeadFacts}
    (told : (runAll pieces .idle).1 = before ++ .head facts :: (bodies.map .body ++ rest))
    (plain : facts.upgrade = false) (all : ∀ event ∈ rest.head?, event.isBody = false) :
    (∀ n ∈ facts.bodyLength, bodies.flatten.length ≤ n) ∧
      (rest = [] ∨ (∀ n ∈ facts.bodyLength, bodies.flatten.length = n) ∧
        (rest = [.complete] ∨ ∃ more, rest = .complete :: .begin :: more)) := by
  have allowed := runAll_inTurn pieces
  have due : facts.due = .body facts.bodyLength := if_neg (by simp [plain])
  rw [told, Due.allowsAll_append, Due.AllowsAll, Due.after, due] at allowed
  obtain ⟨most, behind⟩ := allowed.2.2.bodies
  refine ⟨most, ?_⟩
  cases rest with
  | nil => exact .inl rfl
  | cons event more =>
      obtain ⟨here, further⟩ := behind
      cases event with
      | body bytes => exact absurd (all _ rfl) (by simp [Event.isBody])
      | complete =>
          refine .inr ⟨fun n known => ?_, ?_⟩
          · have none := here (n - bodies.flatten.length) (Option.mem_map_of_mem _ known)
            have within := most n known
            omega
          · cases more with
            | nil => exact .inl rfl
            | cons next others =>
                obtain ⟨first, -⟩ := further
                cases next with
                | begin => exact .inr ⟨others, rfl⟩
                | _ => cases first
      | _ => cases here

end Parser

/-- Pieces are read and told up to the first refusal; the status of a fault is recorded. -/
theorem Intake.feedAll_eq (limits : Limits) (intake : Intake) (pieces : List Bytes) :
    intake.feedAll limits pieces =
      match deliver (Assembly.listener limits) (Parser.runAll pieces intake.parser).1
        intake.queue with
      | (some refusal, queue) =>
          ⟨⟨.failed, queue.recordFailure (ParseError.refused refusal).status⟩,
            .error (.refused refusal)⟩
      | (none, queue) =>
          match (Parser.runAll pieces intake.parser).2 with
          | .error fault => ⟨⟨.failed, queue.recordFailure fault.status⟩, .error fault⟩
          | .ok parser => ⟨⟨parser, queue⟩, .ok pieces.flatten.length⟩ := by
  rw [feedAll, Parser.executeAll_eq, Parser.tell, Nat.zero_add]
  obtain ⟨refusal, queue⟩ :=
    deliver (Assembly.listener limits) (Parser.runAll pieces intake.parser).1 intake.queue
  cases refusal with
  | some refusal => rfl
  | none =>
      cases (Parser.runAll pieces intake.parser).2 with
      | error fault => rfl
      | ok parser => rfl

/-- A request that is ready when everything is told stays as it is; another one at most gets the
error of a fault. -/
theorem Intake.feedAll_finds (limits : Limits) (intake : Intake) (pieces : List Bytes) {i : Nat}
    {request : Request}
    (found : (deliver (Assembly.listener limits) (Parser.runAll pieces intake.parser).1
      intake.queue).2.items[i]? = some request) :
    (intake.feedAll limits pieces).intake.queue.items[i]? = some request ∨
      request.isReady = false ∧ ∃ status,
        (intake.feedAll limits pieces).intake.queue.items[i]? = some (request.fail status) := by
  have recorded : ∀ {queue : RequestQueue}, queue.items[i]? = some request → ∀ status,
      (queue.recordFailure status).items[i]? = some request ∨ request.isReady = false ∧ ∃ status',
        (queue.recordFailure status).items[i]? = some (request.fail status') :=
    fun found status => (RequestQueue.recordFailure_finds found status).imp_right
      (And.imp_right fun failed => ⟨status, failed⟩)
  rw [feedAll_eq]
  rcases heard : deliver (Assembly.listener limits) (Parser.runAll pieces intake.parser).1
    intake.queue with ⟨refusal, queue⟩
  rw [heard] at found
  cases refusal with
  | some refusal => exact recorded found _
  | none =>
      cases (Parser.runAll pieces intake.parser).2 with
      | error fault => exact recorded found _
      | ok parser => exact .inl found

end EmbeddedHttp
