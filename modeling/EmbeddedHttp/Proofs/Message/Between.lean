/-
# EmbeddedHttp.Proofs.Message.Between -- a stream that stands between messages

A stream stands between messages (`BetweenMessages`) when nothing but line ends came since
it began or since a message of it ended.  A parser that read the stream is idle just then,
however the messages are framed and wherever line ends stray (`Parser.idle_iff_between`); the
one exception is an upgrade, behind which no message begins any more.
-/
import EmbeddedHttp.Proofs.Message.BodyReading
import Mathlib.Data.List.Induction

namespace EmbeddedHttp

set_option autoImplicit false

/-- Nothing but line ends came since the stream began, or since a message of it ended. -/
def BetweenMessages (stream : Bytes) : Prop :=
  ∃ whole gap, stream = whole ++ gap ∧ Pipeline.IsGap gap ∧
    (whole = [] ∨ (Parser.idle.octets whole).1.getLast? = some .complete)

namespace Parser

variable {parser next : Parser} {b : UInt8} {events : List Event} {taken : Nat}
  {stream : Bytes}

/-! ## One step -/

theorem headEvents_not_complete {events : List Event}
    (ofHead : ∀ event ∈ events, event.isOfHead = true) : events.getLast? ≠ some .complete := by
  intro last
  have told := ofHead .complete (List.mem_of_getLast? last)
  cases told

/-- Behind a head the message is complete, or its body is read. -/
theorem afterHead_ends {raw : Head.Raw} (stepped : afterHead raw = (events, .ok (next, taken))) :
    (next = .idle ∨ next = .upgraded) ∧ events.getLast? = some .complete ∨
      next ≠ .idle ∧ events.getLast? ≠ some .complete := by
  have head := headEvents_not_complete (announce_ofHead raw)
  simp only [afterHead] at stepped
  split at stepped
  · cases stepped
  · split at stepped
    · cases stepped
      exact .inl ⟨.inr rfl, List.getLast?_concat⟩
    · split at stepped
      · cases stepped
        exact .inr ⟨by simp, head⟩
      · cases stepped
        exact .inr ⟨by simp, head⟩
      · cases stepped
        exact .inl ⟨.inl rfl, List.getLast?_concat⟩

theorem headStep_ends {scan : Head.Scan} {size : Nat}
    (stepped : headStep scan size b = (events, .ok (next, taken))) :
    (next = .idle ∨ next = .upgraded) ∧ events.getLast? = some .complete ∨
      next ≠ .idle ∧ events.getLast? ≠ some .complete := by
  simp only [headStep] at stepped
  split at stepped
  · split at stepped
    · cases stepped
    · cases stepped
      exact .inr ⟨by simp, by simp⟩
  · exact afterHead_ends stepped
  · cases stepped
  · cases stepped

/-- A step passes over a line end between messages, or ends a message, or leads into one or
behind an upgrade. -/
theorem step_ends (stepped : parser.step b [] = (events, .ok (next, taken))) :
    parser = .idle ∧ next = .idle ∧ (b = Bytes.cr ∨ b = Bytes.lf) ∧ events = [] ∨
      (next = .idle ∨ next = .upgraded) ∧ events.getLast? = some .complete ∨
      next ≠ .idle ∧ events.getLast? ≠ some .complete ∧
        (parser = .idle ∨ parser = .upgraded → events ≠ []) := by
  cases parser with
  | failed => cases stepped
  | idle =>
      simp only [step] at stepped
      split at stepped
      · rename_i gap
        cases stepped
        refine .inl ⟨rfl, rfl, ?_, rfl⟩
        simpa using gap
      · -- the first octet of a message is read as one of its head
        obtain ⟨rfl, result⟩ := Prod.mk.inj stepped
        refine .inr ((headStep_ends (Prod.ext rfl result)).imp (fun ended => ?_) fun inside => ?_)
        · rw [List.getLast?_cons, ended.2]
          exact ⟨ended.1, rfl⟩
        · refine ⟨inside.1, fun last => inside.2 ?_, fun _ => List.cons_ne_nil _ _⟩
          rw [List.getLast?_cons, Option.some_inj] at last
          cases told : (headStep Head.Scan.start 0 b).1.getLast? with
          | none => rw [told] at last; cases last
          | some event => rw [told] at last; exact congrArg some last
  | head scan size =>
      refine .inr ((headStep_ends stepped).imp_right fun inside => ⟨inside.1, inside.2, ?_⟩)
      rintro (same | same) <;> cases same
  | body left =>
      simp only [step] at stepped
      split at stepped
      · cases stepped
        exact .inr (.inl ⟨.inl rfl, rfl⟩)
      · cases stepped
        refine .inr (.inr ⟨by simp, by simp, ?_⟩)
        rintro (same | same) <;> cases same
  | chunked place =>
      cases place with
      | data left =>
          cases stepped
          refine .inr (.inr ⟨by simp, by simp, ?_⟩)
          rintro (same | same) <;> cases same
      | _ =>
          simp only [step, chunkStep] at stepped
          split at stepped
          · cases stepped
            refine .inr (.inr ⟨by simp, by simp, ?_⟩)
            rintro (same | same) <;> cases same
          · cases stepped
            exact .inr (.inl ⟨.inl rfl, rfl⟩)
          · cases stepped
          · cases stepped
  | upgraded =>
      cases stepped
      exact .inr (.inr ⟨by simp, by simp, fun _ => List.cons_ne_nil _ _⟩)

/-! ## A whole stream -/

theorem octets_concat (parser : Parser) (stream : Bytes) (b : UInt8) :
    parser.octets (stream ++ [b]) = (parser.octets stream).andThen fun next =>
      afterStep (next.step b []) fun later _ => ([], .ok later) :=
  octets_append parser stream [b]

/-- A stream that was read without a fault was so up to its last octet. -/
theorem octets_concat_ok {stream : Bytes} {b : UInt8}
    (read : parser.octets (stream ++ [b]) = (events, .ok next)) :
    ∃ told between more taken, parser.octets stream = (told, .ok between) ∧
      between.step b [] = (more, .ok (next, taken)) ∧ events = told ++ more := by
  rw [octets_concat] at read
  rcases before : parser.octets stream with ⟨told, result⟩
  rw [before] at read
  cases result with
  | error fault => cases read
  | ok between =>
      rw [Reading.andThen_ok] at read
      rcases stepped : between.step b [] with ⟨more, outcome⟩
      rw [stepped] at read
      cases outcome with
      | error fault => cases read
      | ok after =>
          obtain ⟨later, taken⟩ := after
          simp only [afterStep, List.append_nil] at read
          cases read
          exact ⟨told, between, more, taken, rfl, stepped, rfl⟩

/-- A parser that told last of the end of a message is between messages, or the message was
an upgrade. -/
theorem octets_ends (read : Parser.idle.octets stream = (events, .ok next))
    (ended : events.getLast? = some .complete) : next = .idle ∨ next = .upgraded := by
  induction stream using List.reverseRecOn generalizing events next with
  | nil =>
      cases read
      exact .inl rfl
  | append_singleton before b ih =>
      obtain ⟨told, between, more, taken, earlier, stepped, rfl⟩ := octets_concat_ok read
      rcases step_ends stepped with ⟨-, isIdle, -, -⟩ | ⟨either, -⟩ | ⟨-, notEnded, some⟩
      · exact .inl isIdle
      · exact either
      · -- the last event came earlier, and behind it a step tells something
        have none : more = [] := by
          by_contra told
          rw [List.getLast?_append, List.getLast?_eq_some_getLast told] at ended
          exact notEnded ((List.getLast?_eq_some_getLast told).trans ended)
        rw [none, List.append_nil] at ended
        exact absurd none (some (ih earlier ended))

/-- **A parser is idle exactly while the stream stands between messages**, as long as it has
met no fault and no upgrade. -/
theorem idle_iff_between (read : Parser.idle.octets stream = (events, .ok next))
    (plain : next ≠ .upgraded) : next = .idle ↔ BetweenMessages stream := by
  constructor
  · induction stream using List.reverseRecOn generalizing events next with
    | nil => exact fun _ => ⟨[], [], rfl, fun _ member => (by cases member), .inl rfl⟩
    | append_singleton before b ih =>
        rintro rfl
        obtain ⟨told, between, more, taken, earlier, stepped, rfl⟩ := octets_concat_ok read
        rcases step_ends stepped with ⟨rfl, -, lineEnd, -⟩ | ⟨-, ended⟩ | ⟨inside, -⟩
        · obtain ⟨whole, gap, rfl, lineEnds, ended⟩ := ih earlier (by decide) rfl
          refine ⟨whole, gap ++ [b], List.append_assoc _ _ _, fun c member => ?_, ended⟩
          rcases List.mem_append.1 member with old | new
          · exact lineEnds c old
          · rw [List.mem_singleton.1 new]
            exact lineEnd
        · refine ⟨before ++ [b], [], (List.append_nil _).symm, fun _ member => (by cases member),
            .inr ?_⟩
          rw [read, List.getLast?_append, ended]
          rfl
        · exact absurd rfl inside
  · rintro ⟨whole, gap, rfl, lineEnds, ended⟩
    rw [octets_append] at read
    rcases first : Parser.idle.octets whole with ⟨told, result⟩
    rw [first] at read ended
    cases result with
    | error fault => cases read
    | ok between =>
        rw [Reading.andThen_ok] at read
        -- no line end leads out of the state behind the last message
        have state : between = .idle ∨ between = .upgraded := by
          rcases ended with rfl | ended
          · cases first
            exact .inl rfl
          · exact octets_ends first ended
        rcases state with rfl | rfl
        · rw [octets_gap lineEnds] at read
          cases read
          rfl
        · rw [octets_upgraded] at read
          cases read
          exact absurd rfl plain

/-- Inside a message a stream does not stand between messages. -/
theorem not_between_of_inside
    (inside : (Parser.idle.octets stream).2.toOption.any
      (fun next => !next.isIdle && !next.isUpgraded) = true) : ¬BetweenMessages stream := by
  rcases read : Parser.idle.octets stream with ⟨events, result⟩
  rw [read] at inside
  cases result with
  | error fault => cases inside
  | ok next =>
      obtain ⟨notIdle, plain⟩ : ¬next = .idle ∧ next ≠ .upgraded := by
        simpa [Except.toOption, isIdle, isUpgraded] using inside
      exact fun between => notIdle ((idle_iff_between read plain).2 between)

end Parser

end EmbeddedHttp
