/-
# EmbeddedHttp.Proofs.Message.DeclaredLengths -- the length that a head declares

A Content-Length field declares a number if its value is decimal digits among blanks
(`Bytes.Declares`): any number of leading zeros, no sign, and nothing in between.  What is read
of a value is the number that it declares, if 64 bits hold it (`contentLength?_eq_some_iff`).

A head without transfer codings is framed by these fields alone, wherever they stand in it
(`Raw.announce_uncoded`): it has no body if there are none, and a body of `n` octets if every
one of them declares `n`.  In all other cases it is malformed.  They are that one of the values
declares no number of 64 bits, or that two of them declare different ones.
-/
import EmbeddedHttp.Proofs.Message.Codings
import EmbeddedHttp.Proofs.Message.EventOrder
import EmbeddedHttp.Proofs.Message.KeptHeads
import EmbeddedHttp.Proofs.Text.Numeral

namespace EmbeddedHttp

set_option autoImplicit false

/-! ## Numerals among blanks -/

namespace Bytes

/-- The value is decimal digits among blanks, and they denote the number: the last digit counts
ones, the one before it tens, and so on. -/
def Declares (value : Bytes) (n : Nat) : Prop :=
  ∃ front digits back, value = front ++ digits ++ back ∧
    (∀ b ∈ front, isBlank b = true) ∧ (∀ b ∈ back, isBlank b = true) ∧
    digits ≠ [] ∧ (∀ b ∈ digits, isDigit b = true) ∧
    Nat.ofDigits 10 (digits.reverse.map fun b => b.toNat - 48) = n

/-- What declares a number is digits once it is trimmed. -/
theorem declares_iff {value : Bytes} {n : Nat} :
    Declares value n ↔ DecimalNumeral (trimBlanks value) n := by
  constructor
  · rintro ⟨front, digits, back, rfl, before, behind, nonempty, digit, denotes⟩
    have trimmed : trimBlanks (front ++ digits ++ back) = digits :=
      trimBlanks_among before behind (fun b member => not_isBlank_of_isDigit (digit b member))
        nonempty
    rw [trimmed]
    refine ⟨nonempty, digit, ?_⟩
    rw [decimalFrom_ofDigits, denotes, Nat.mul_zero, Nat.add_zero]
  · rintro ⟨nonempty, digit, denotes⟩
    obtain ⟨front, back, split, before, behind⟩ := trimBlanks_split value
    refine ⟨front, trimBlanks value, back, split, before, behind, nonempty, digit, ?_⟩
    rw [← denotes, decimalFrom_ofDigits, Nat.mul_zero, Nat.add_zero]

theorem Declares.unique {value : Bytes} {m n : Nat} (one : Declares value m)
    (other : Declares value n) : m = n :=
  (declares_iff.1 one).value.symm.trans (declares_iff.1 other).value

end Bytes

namespace Head

open Bytes (Declares)

/-- **A value is read as the number that it declares, if 64 bits hold it.** -/
theorem contentLength?_eq_some_iff {value : Bytes} {n : Nat} :
    contentLength? value = some n ↔ Declares value n ∧ n < Bytes.wordBound := by
  rw [Bytes.declares_iff]
  constructor
  · intro read
    simp only [contentLength?] at read
    split at read
    · cases read
    · rename_i numeral
      rw [Bool.or_eq_true, not_or, Bool.not_eq_true, Bool.not_eq_true, Bool.not_eq_false',
        List.isEmpty_eq_false_iff, List.all_eq_true] at numeral
      split at read
      · rename_i word
        cases read
        exact ⟨⟨numeral.1, numeral.2, rfl⟩, word⟩
      · cases read
  · rintro ⟨⟨nonempty, digit, rfl⟩, word⟩
    simp [contentLength?, nonempty, List.all_eq_true.2 digit, word]

theorem contentLength?_eq_none_iff {value : Bytes} :
    contentLength? value = none ↔ ∀ n, Declares value n → Bytes.wordBound ≤ n := by
  rw [Option.eq_none_iff_forall_ne_some]
  refine forall_congr' fun n => ?_
  rw [ne_eq, contentLength?_eq_some_iff, not_and, Nat.not_lt]

/-! ## Lengths that agree -/

/-- The values all declare one number, and 64 bits hold it. -/
def Agreeing (lengths : List Bytes) (n : Nat) : Prop :=
  lengths ≠ [] ∧ (∀ value ∈ lengths, Declares value n) ∧ n < Bytes.wordBound

/-- How the values of the Content-Length fields frame a body. -/
def FramedBy (lengths : List Bytes) (framing : Framing) : Prop :=
  (lengths = [] ∧ framing = .none) ∨ ∃ n, Agreeing lengths n ∧ framing = .length n

/-- The values frame nothing: one of them declares no number that 64 bits hold, or two of them
declare different ones. -/
def AtOdds (lengths : List Bytes) : Prop :=
  (∃ value ∈ lengths, ∀ n, Declares value n → Bytes.wordBound ≤ n) ∨
    ∃ one ∈ lengths, ∃ other ∈ lengths, ∃ m n, Declares one m ∧ Declares other n ∧ m ≠ n

theorem FramedBy.unique {lengths : List Bytes} {one other : Framing}
    (first : FramedBy lengths one) (second : FramedBy lengths other) : one = other := by
  rcases first with ⟨empty, rfl⟩ | ⟨n, ⟨nonempty, all, -⟩, rfl⟩
  · rcases second with ⟨-, rfl⟩ | ⟨m, ⟨nonempty, -⟩, -⟩
    · rfl
    · exact absurd empty nonempty
  · rcases second with ⟨empty, -⟩ | ⟨m, ⟨-, allOther, -⟩, rfl⟩
    · exact absurd empty nonempty
    · obtain ⟨value, others, rfl⟩ := List.exists_cons_of_ne_nil nonempty
      rw [(all value List.mem_cons_self).unique (allOther value List.mem_cons_self)]

section Fields

variable {fields : List (Bytes × Bytes)}

theorem framedByLength_iff {framing : Framing} :
    FramedByLength fields framing ↔ FramedBy (valuesOf "content-length" fields) framing := by
  refine or_congr Iff.rfl (exists_congr fun n => ?_)
  constructor
  · rintro ⟨nonempty, denote, rfl⟩
    obtain ⟨value, others, split⟩ := List.exists_cons_of_ne_nil nonempty
    have word := (contentLength?_eq_some_iff.1 (denote value (by simp [split]))).2
    exact ⟨⟨nonempty, fun value member => (contentLength?_eq_some_iff.1 (denote value member)).1,
      word⟩, rfl⟩
  · rintro ⟨⟨nonempty, all, word⟩, rfl⟩
    exact ⟨nonempty, fun value member => contentLength?_eq_some_iff.2 ⟨all value member, word⟩, rfl⟩

/-- Lengths agree unless they are at odds. -/
theorem atOdds_iff :
    AtOdds (valuesOf "content-length" fields) ↔ ¬ ∃ n, LengthsDenote fields n := by
  constructor
  · rintro (⟨value, member, beyond⟩ | ⟨one, oneIn, other, otherIn, m, n, declaresOne, declaresOther,
      apart⟩) ⟨k, denote⟩
    · have unread := contentLength?_eq_none_iff.2 beyond
      rw [denote value member] at unread
      cases unread
    · have first := (contentLength?_eq_some_iff.1 (denote one oneIn)).1
      have second := (contentLength?_eq_some_iff.1 (denote other otherIn)).1
      exact apart ((declaresOne.unique first).trans (second.unique declaresOther))
  · intro disagree
    by_contra agreed
    rw [AtOdds, not_or] at agreed
    obtain ⟨readable, alike⟩ := agreed
    have reads : ∀ value ∈ valuesOf "content-length" fields,
        ∃ n, contentLength? value = some n := by
      intro value member
      rw [← Option.ne_none_iff_exists']
      intro unread
      exact readable ⟨value, member, contentLength?_eq_none_iff.1 unread⟩
    cases lengths : valuesOf "content-length" fields with
    | nil =>
        refine disagree ⟨0, ?_⟩
        intro value member
        rw [lengths] at member
        cases member
    | cons first others =>
        have here : first ∈ valuesOf "content-length" fields := by simp [lengths]
        obtain ⟨n, denotes⟩ := reads first here
        refine disagree ⟨n, ?_⟩
        intro value member
        obtain ⟨m, read⟩ := reads value member
        rw [read]
        by_contra apart
        exact alike ⟨value, member, first, here, m, n, (contentLength?_eq_some_iff.1 read).1,
          (contentLength?_eq_some_iff.1 denotes).1, fun same => apart (congrArg some same)⟩

/-- Only a length gets a field refused. -/
theorem announceFields_cause {notes : Notes} {cause : Malformed}
    (refused : (announceFields notes fields).2 = .error cause) :
    cause = .contentLength ∨ cause = .conflictingContentLength := by
  induction fields generalizing notes with
  | nil => cases refused
  | cons field rest ih =>
      unfold announceFields at refused
      cases added : notes.add field.1 field.2 with
      | error other =>
          rw [added] at refused
          cases refused
          unfold Notes.add at added
          repeat' split at added
          all_goals cases added
          · exact .inl rfl
          · exact .inr rfl
      | ok next =>
          rw [added] at refused
          exact ih refused

end Fields

/-! ## Heads without transfer codings -/

variable {raw : Raw}

theorem Raw.announce_cause {cause : Malformed} (refused : raw.announce.2 = .error cause) :
    cause = .contentLength ∨ cause = .conflictingContentLength := by
  simp only [announce] at refused
  split at refused
  · rename_i noted
    cases refused
    exact announceFields_cause noted
  · cases refused

theorem Raw.announce_framedBy (uncoded : valuesOf "transfer-encoding" raw.fields = [])
    {facts : HeadFacts} (accepted : raw.announce.2 = .ok facts) :
    FramedBy (valuesOf "content-length" raw.fields) facts.framing := by
  obtain ⟨n, denote, framed⟩ := announce_framing accepted
  rw [framed, ← framedByLength_iff]
  exact Notes.passing_framedByLength denote (by simp [Notes.passing, Notes.none, uncoded])

end Head

namespace Parser

variable {octets : Bytes} {raw : Head.Raw}

/-- No line end begins a head. -/
theorem run_begin {b : UInt8} (rest : Bytes) (first : (b == Bytes.cr || b == Bytes.lf) = false) :
    idle.run (b :: rest) =
      (.begin :: ((head Head.Scan.start 0).run (b :: rest)).1,
        ((head Head.Scan.start 0).run (b :: rest)).2) := by
  rw [run_cons, run_cons]
  simp only [step, first]
  obtain ⟨events, result⟩ := headStep Head.Scan.start 0 b
  cases result <;> rfl

theorem not_lineEnd_of_parse {b : UInt8} {rest : Bytes} {size : Nat}
    (whole : Head.parse (b :: rest) = .complete raw size) :
    (b == Bytes.cr || b == Bytes.lf) = false := by
  by_contra lineEnd
  rw [Bool.not_eq_false, Bool.or_eq_true, beq_iff_eq, beq_iff_eq] at lineEnd
  rcases lineEnd with rfl | rfl <;> cases whole

/-- A parser that is given a head and nothing behind it tells what the head announces. -/
theorem run_wholeHead (whole : Head.parse octets = .complete raw octets.length)
    (fits : octets.length ≤ Head.maxSize) :
    idle.run octets =
      match raw.announce with
      | (events, .error cause) => (.begin :: events, .error (.invalid cause))
      | (events, .ok facts) => (.begin :: (events ++ (Rereader.behindHead facts).1),
          .ok (Rereader.parser ⟨(Rereader.behindHead facts).2, []⟩)) := by
  have headed : Rereader.HeadRun Head.Scan.start 0 octets
      (Head.Scan.start.parse 0 (octets.take (Head.maxSize - 0))) :=
    Rereader.headRun (Nat.succ_pos _) octets
  rw [Nat.sub_zero, List.take_of_length_le fits,
    show Head.Scan.start.parse 0 octets = _ from whole] at headed
  have run : (head Head.Scan.start 0).run octets =
      afterStep (afterHead raw) fun next _ => next.run (octets.drop octets.length) := headed
  simp only [List.drop_length, run_nil, Rereader.afterHead_eq] at run
  cases octets with
  | nil => cases whole
  | cons b rest =>
      rw [run_begin rest (not_lineEnd_of_parse whole), run]
      rcases raw.announce with ⟨events, cause | facts⟩
      · rfl
      · simp [afterStep]

theorem head_mem_run_iff (whole : Head.parse octets = .complete raw octets.length)
    (fits : octets.length ≤ Head.maxSize) (facts : HeadFacts) :
    .head facts ∈ (idle.run octets).1 ↔ raw.announce.2 = .ok facts := by
  have plain : ∀ fields, .head facts ∉ Head.fieldEvents fields := by
    intro fields
    simp [Head.fieldEvents]
  have behind : ∀ other, .head facts ∉ (Rereader.behindHead other).1 := by
    intro other
    unfold Rereader.behindHead
    repeat' split
    all_goals simp
  rw [run_wholeHead whole fits]
  obtain ⟨fields, cause, -, announced⟩ | ⟨told, announced⟩ := announce_events raw
  · simp [announced, plain fields]
  · simp [announced, plain raw.fields, behind told, eq_comm]

theorem run_error_iff (whole : Head.parse octets = .complete raw octets.length)
    (fits : octets.length ≤ Head.maxSize) (fault : ParseError) :
    (idle.run octets).2 = .error fault ↔
      ∃ cause, fault = .invalid cause ∧ raw.announce.2 = .error cause := by
  rw [run_wholeHead whole fits]
  rcases raw.announce with ⟨events, cause | facts⟩
  · simp [eq_comm]
  · simp

end Parser

namespace Head

variable {raw : Raw}

/-- **A head without transfer codings is framed by its lengths**, and is malformed if these are at
odds; nothing else in it is of consequence.  A parser that is given such a head tells so. -/
theorem Raw.announce_uncoded (uncoded : valuesOf "transfer-encoding" raw.fields = []) :
    let lengths := valuesOf "content-length" raw.fields
    (∀ framing, (∃ facts, raw.announce.2 = .ok facts ∧ facts.framing = framing) ↔
        FramedBy lengths framing) ∧
      ((∃ cause, raw.announce.2 = .error cause) ↔ AtOdds lengths) ∧
      (∀ cause, raw.announce.2 = .error cause →
        cause = .contentLength ∨ cause = .conflictingContentLength) ∧
      ∀ octets, Head.parse octets = .complete raw octets.length → octets.length ≤ maxSize →
        (∀ facts, .head facts ∈ (Parser.idle.run octets).1 ↔ raw.announce.2 = .ok facts) ∧
        (∀ fault, (Parser.idle.run octets).2 = .error fault ↔
          ∃ cause, fault = .invalid cause ∧ raw.announce.2 = .error cause) := by
  intro lengths
  refine ⟨fun framing => ⟨?_, fun framed => ?_⟩, ?_, fun cause => raw.announce_cause,
    fun octets whole fits =>
      ⟨Parser.head_mem_run_iff whole fits, Parser.run_error_iff whole fits⟩⟩
  · rintro ⟨facts, accepted, rfl⟩
    exact raw.announce_framedBy uncoded accepted
  · -- lengths that frame a body agree, so the head is accepted, and framed in one way only
    have agreed : ∃ n, LengthsDenote raw.fields n := by
      rcases framedByLength_iff.2 framed with ⟨absent, -⟩ | ⟨n, -, denote, -⟩
      · refine ⟨0, ?_⟩
        intro value member
        rw [absent] at member
        cases member
      · exact ⟨n, denote⟩
    obtain ⟨facts, accepted⟩ := raw.announce_ok_iff.2 agreed
    exact ⟨facts, accepted, (raw.announce_framedBy uncoded accepted).unique framed⟩
  · rw [atOdds_iff, ← raw.announce_ok_iff]
    cases raw.announce.2 <;> simp

/-- A head with two lengths that differ in their zeros and blanks. -/
def spelledTwice : Bytes :=
  Bytes.ofAscii "PUT /a HTTP/1.1\r\nContent-Length: 007\r\nHost:\r\ncontent-length:7 \r\n\r\n"

/-- What it reads as. -/
def readTwice : Raw :=
  ⟨Bytes.ofAscii "PUT", Bytes.ofAscii "/a", .http11,
    [(Bytes.ofAscii "Content-Length", Bytes.ofAscii "007"), (Bytes.ofAscii "Host", []),
      (Bytes.ofAscii "content-length", Bytes.ofAscii "7")]⟩

/-- It is framed as having a body of seven octets. -/
theorem spelledTwice_framed :
    valuesOf "transfer-encoding" readTwice.fields = [] ∧
      ∃ facts, .head facts ∈ (Parser.idle.run spelledTwice).1 ∧ facts.framing = .length 7 := by
  have uncoded : valuesOf "transfer-encoding" readTwice.fields = [] := by decide
  have lengths : valuesOf "content-length" readTwice.fields =
      [Bytes.ofAscii "007", Bytes.ofAscii "7"] := by decide
  obtain ⟨framed, -, -, told⟩ := Raw.announce_uncoded uncoded
  have whole : Head.parse spelledTwice = .complete readTwice spelledTwice.length := by
    decide +kernel
  have agreeing : Agreeing (valuesOf "content-length" readTwice.fields) 7 := by
    rw [lengths]
    refine ⟨List.cons_ne_nil _ _, ?_, by decide⟩
    intro value member
    rcases List.mem_pair.1 member with rfl | rfl
    · exact Bytes.declares_iff.2 ⟨by decide, List.all_eq_true.1 (by decide), by decide⟩
    · exact Bytes.declares_iff.2 ⟨by decide, List.all_eq_true.1 (by decide), by decide⟩
  obtain ⟨facts, accepted, seven⟩ := (framed _).2 (.inr ⟨7, agreeing, rfl⟩)
  exact ⟨uncoded, facts, ((told _ whole (by decide +kernel)).1 facts).2 accepted, seven⟩

end Head

end EmbeddedHttp
