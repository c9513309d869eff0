/-
# EmbeddedHttp.Proofs.Response.StatusLines -- the status line that an application's status makes

A status line is the version, a space, and a status, whose first token spells the code
(`Bytes.SpellsCode`).  It should do so in three digits.  But the token is read as any numeral in
text is, with a sign and leading zeros allowed, and goes out as it was given.

So what stands in front of the three digits is a plus sign, zeros, both, or nothing, and it is
nothing exactly if the trimmed status begins with neither of them (`call_statusLine`).  In all
else the line is as it should be.
-/
import EmbeddedHttp.Proofs.Response.Unsplit

namespace EmbeddedHttp

set_option autoImplicit false

/-! ## Spelling a code -/

namespace Bytes

/-- The line is a version, a space, and a status whose first token is the code in three digits,
with `lead` in front of them.  Nothing follows the token, or a space and a reason. -/
def SpellsCode (version : Version) (lead : Bytes) (code : Nat) (line : Bytes) : Prop :=
  ∃ digits rest, line = ofAscii version.name ++ [space] ++ (lead ++ digits ++ rest) ∧
    DecimalNumeral digits code ∧ digits.length = 3 ∧
    (rest = [] ∨ ∃ reason, rest = space :: reason)

/-- The numeral of a code has three digits, and the first is no zero. -/
theorem ofNat_code {code : Nat} (above : 100 ≤ code) (below : code < 1000) :
    (ofNat code).length = 3 ∧ ∃ first ∈ (ofNat code).head?, first ≠ 43 ∧ first ≠ 48 := by
  have inked : ∀ digit < 10, digit.digitChar.toNat.toUInt8 ≠ 43 ∧
      (digit ≠ 0 → digit.digitChar.toNat.toUInt8 ≠ 48) := by decide
  have spelled : ofNat code = [(code / 10 / 10).digitChar.toNat.toUInt8,
      (code / 10 % 10).digitChar.toNat.toUInt8, (code % 10).digitChar.toNat.toUInt8] := by
    rw [ofNat_eq, if_neg (by omega), ofNat_eq, if_neg (by omega), ofNat_eq, if_pos (by omega)]
    rfl
  have first := inked (code / 10 / 10) (by omega)
  rw [spelled]
  exact ⟨rfl, _, rfl, first.1, first.2 (by omega)⟩

/-- A token ends at the first space. -/
theorem token_unique {one other first second : Bytes} (inked : space ∉ one)
    (inkedOther : space ∉ other) (ends : first = [] ∨ ∃ reason, first = space :: reason)
    (endsOther : second = [] ∨ ∃ reason, second = space :: reason)
    (same : one ++ first = other ++ second) : one = other := by
  have token : ∀ {word rest : Bytes}, space ∉ word →
      (rest = [] ∨ ∃ reason, rest = space :: reason) → (word ++ rest).takeWhile (· != space) = word := by
    intro word rest inked ends
    have keeps : ∀ b ∈ word, (b != space) = true := by
      intro b member
      rw [bne_iff_ne]
      rintro rfl
      exact inked member
    rw [List.takeWhile_append_of_pos keeps]
    rcases ends with rfl | ⟨reason, rfl⟩ <;> simp
  rw [← token inked ends, same, token inkedOther endsOther]

theorem DecimalNumeral.space_notMem {digits : Bytes} {n : Nat} (numeral : DecimalNumeral digits n) :
    space ∉ digits := by
  intro member
  have digit := numeral.digit _ member
  revert digit
  decide

/-- Three digits and something in front of them are more than three digits. -/
theorem SpellsCode.lead_eq_nil {version : Version} {lead line : Bytes} {code : Nat}
    (inked : space ∉ lead) (padded : SpellsCode version lead code line)
    (bare : SpellsCode version [] code line) : lead = [] := by
  obtain ⟨digits, rest, rfl, numeral, three, ends⟩ := padded
  obtain ⟨others, behind, same, numeralOther, threeOther, endsOther⟩ := bare
  rw [List.append_cancel_left_eq] at same
  have token : lead ++ digits = [] ++ others :=
    token_unique (by simpa [inked] using numeral.space_notMem) numeralOther.space_notMem ends
      endsOther same
  have count := congrArg List.length token
  rw [List.length_append, List.length_append, three, threeOther] at count
  exact List.length_eq_zero_iff.1 (by simpa using count)

end Bytes

/-! ## Numerals in text -/

namespace Text

open Bytes (DecimalNumeral)

/-- The octets of some characters. -/
def octets (chars : List Char) : Bytes := chars.flatMap String.utf8EncodeChar

theorem octets_cons (c : Char) (rest : List Char) :
    octets (c :: rest) = String.utf8EncodeChar c ++ octets rest := rfl

theorem octet_of_isDigit {c : Char} (digit : c.isDigit = true) :
    String.utf8EncodeChar c = [c.toNat.toUInt8] ∧ Bytes.isDigit c.toNat.toUInt8 = true ∧
      c.toNat.toUInt8.toNat = c.toNat := by
  have ascii : c.toNat < 128 := by
    simp only [Char.isDigit, Bool.and_eq_true, decide_eq_true_eq, UInt32.le_iff_toNat_le]
      at digit
    exact Nat.lt_of_le_of_lt digit.2 (by decide)
  have each := forall_ascii (P := fun c => c.isDigit = true →
    Bytes.isDigit c.toNat.toUInt8 = true ∧ c.toNat.toUInt8.toNat = c.toNat)
    (by decide +kernel) ascii
  exact ⟨Bytes.utf8EncodeChar_ascii ascii, each digit⟩

/-- A letter counts ten at least, so it is no decimal digit. -/
theorem digitsFrom?_cons {c : Char} {rest : List Char} {value n : Nat}
    (read : digitsFrom? 10 value (c :: rest) = some n) :
    c.isDigit = true ∧ digitsFrom? 10 (value * 10 + (c.toNat - 48)) rest = some n := by
  simp only [digitsFrom?] at read
  split at read
  · rename_i d counts
    split at counts
    · rename_i digit
      cases counts
      split at read
      · exact ⟨digit, read⟩
      · cases read
    · have large : 10 ≤ d := by
        split at counts
        · rename_i letter
          have above : 97 ≤ c.toNat := letter.1
          cases counts
          omega
        · split at counts
          · rename_i letter
            have above : 65 ≤ c.toNat := letter.1
            cases counts
            omega
          · cases counts
      rw [if_neg (by omega)] at read
      cases read
  · cases read

/-- What is read as decimal digits are digits of the same value on the wire. -/
theorem digitsFrom?_eq_some {chars : List Char} {value n : Nat}
    (read : digitsFrom? 10 value chars = some n) :
    (∀ b ∈ octets chars, Bytes.isDigit b = true) ∧ Bytes.decimalFrom value (octets chars) = n := by
  induction chars generalizing value with
  | nil =>
      cases read
      exact ⟨nofun, rfl⟩
  | cons c rest ih =>
      obtain ⟨digit, later⟩ := digitsFrom?_cons read
      obtain ⟨encoded, isDigit, same⟩ := octet_of_isDigit digit
      obtain ⟨digits, denotes⟩ := ih later
      rw [octets_cons, encoded, List.singleton_append]
      refine ⟨List.forall_mem_cons.2 ⟨isDigit, digits⟩, ?_⟩
      rw [← List.singleton_append, Bytes.decimalFrom_append, Bytes.decimalFrom_singleton, same]
      exact denotes

theorem digits?_eq_some {bound n : Nat} {chars : List Char}
    (read : digits? 10 bound chars = some n) :
    DecimalNumeral (octets chars) n := by
  cases chars with
  | nil => cases read
  | cons c rest =>
      obtain ⟨first, -⟩ := Option.filter_eq_some_iff.1 read
      obtain ⟨digits, denotes⟩ := digitsFrom?_eq_some first
      refine ⟨?_, digits, denotes⟩
      rw [octets_cons]
      exact List.append_ne_nil_of_left_ne_nil String.utf8EncodeChar_ne_nil _

/-- What is read as a numeral is digits behind a plus sign or nothing. -/
theorem numeral?_eq_some {bound n : Nat} {chars : List Char}
    (read : numeral? bound chars = some n) :
    ∃ sign digits, octets chars = sign ++ digits ∧ (sign = [] ∨ sign = [43]) ∧
      DecimalNumeral digits n := by
  unfold numeral? at read
  split at read
  · exact ⟨[43], _, rfl, .inr rfl, digits?_eq_some read⟩
  · exact ⟨[], _, rfl, .inl rfl, digits?_eq_some read⟩

end Text

/-! ## The line -/

open Bytes (SpellsCode)

namespace ResponseHead

/-- The code of a status, as it stands on the wire: in three digits, behind a sign and zeros. -/
theorem code?_eq_some {status : String} {code : Nat} (read : code? status = some code) :
    ∃ sign k rest, Bytes.ofText status = sign ++ List.replicate k 48 ++ Bytes.ofNat code ++ rest ∧
      (sign = [] ∨ sign = [43]) ∧ (rest = [] ∨ ∃ reason, rest = Bytes.space :: reason) ∧
      100 ≤ code ∧ code < 1000 := by
  obtain ⟨numeral, range⟩ := Option.filter_eq_some_iff.1 read
  rw [Bool.and_eq_true, decide_eq_true_eq, decide_eq_true_eq] at range
  obtain ⟨sign, digits, split, signed, denotes⟩ := Text.numeral?_eq_some numeral
  obtain ⟨k, padded⟩ := denotes.padded
  have whole := Text.marked_cut ' ' status.toList
  refine ⟨sign, k, Text.octets (Text.marked ' ' (Text.cut ' ' status.toList).2), ?_, signed, ?_,
    range⟩
  · have apart : Bytes.ofText status = Text.octets (Text.cut ' ' status.toList).1 ++
        Text.octets (Text.marked ' ' (Text.cut ' ' status.toList).2) := by
      rw [Text.octets, Text.octets, ← List.flatMap_append, whole]
      rfl
    rw [apart, split, padded, ← List.append_assoc]
  · cases (Text.cut ' ' status.toList).2 with
    | none => exact .inl rfl
    | some reason => exact .inr ⟨_, rfl⟩

end ResponseHead

/-- The status line spells the code that the status begins with. -/
theorem statusLine_spells {head : ResponseHead} {sign rest : Bytes} {k : Nat}
    (spelled : Bytes.ofText head.status =
      sign ++ List.replicate k 48 ++ Bytes.ofNat head.code ++ rest)
    (ends : rest = [] ∨ ∃ reason, rest = Bytes.space :: reason)
    (above : 100 ≤ head.code) (below : head.code < 1000) (context : HeadContext) :
    SpellsCode context.version (sign ++ List.replicate k 48) head.code
      (statusLine head context) :=
  ⟨_, rest, by rw [statusLine, spelled], Bytes.decimalNumeral_ofNat _,
    (Bytes.ofNat_code above below).1, ends⟩

/-- **What the status line of an accepted status is.** -/
theorem StartResponse.call_statusLine {start started : StartResponse} {status : String}
    {headers : List (String × String)} {excuse : Option AppError}
    (called : start.call status headers excuse = .ok started) :
    ∃ head sign k, started.head = some head ∧ (sign = [] ∨ sign = [43]) ∧
      let lead : Bytes := sign ++ List.replicate k 48
      (lead ≠ [] ↔ ∃ first ∈ (Bytes.ofText (Text.trim status)).head?, first = 43 ∨ first = 48) ∧
      ∀ length context, ∃ line others,
        Bytes.lines (assembleHead head length context).1 = line :: others ∧ line.OneLine ∧
        SpellsCode context.version lead head.code line ∧
        (SpellsCode context.version [] head.code line ↔ lead = []) := by
  obtain ⟨head, accepted, rfl⟩ := call_ok called
  have built := ResponseHead.build_ok accepted
  obtain ⟨sign, k, rest, spelled, signed, ends, above, below⟩ :=
    ResponseHead.code?_eq_some built.code
  obtain ⟨-, first, starts, notPlus, notZero⟩ := Bytes.ofNat_code above below
  refine ⟨head, sign, k, rfl, signed, ?_, fun length context => ?_⟩
  · rw [← built.status, spelled]
    rcases signed with rfl | rfl
    · cases k with
      | zero =>
          -- the first octet is that of the numeral
          have front :
              (([] : Bytes) ++ List.replicate 0 48 ++ Bytes.ofNat head.code ++ rest).head? =
                some first := by
            simp only [List.replicate_zero, List.nil_append, List.head?_append,
              Option.mem_def.1 starts, Option.some_or]
          rw [front]
          refine iff_of_false (fun padded => padded rfl) ?_
          rintro ⟨other, same, lead⟩
          cases same
          exact lead.elim notPlus notZero
      | succ k =>
          exact iff_of_true (List.cons_ne_nil _ _) ⟨48, rfl, .inr rfl⟩
    · exact iff_of_true (List.cons_ne_nil _ _) ⟨43, rfl, .inl rfl⟩
  · have spells := statusLine_spells spelled ends above below context
    have inked : Bytes.space ∉ sign ++ List.replicate k 48 := by
      have apart : Bytes.space ≠ 48 := by decide
      rw [List.mem_append, List.mem_replicate, not_or]
      refine ⟨?_, fun zeros => apart zeros.2⟩
      rcases signed with rfl | rfl <;> decide
    refine ⟨_, _, lines_assembleHead built length context, built.oneLine context, spells,
      fun bare => spells.lead_eq_nil inked bare, fun nothing => ?_⟩
    rw [← nothing]
    exact spells

/-- A status with a plus sign is accepted as one of code 200, and goes out with the sign. -/
theorem StartResponse.signed_statusLine :
    ∃ head, StartResponse.new.call "+200 OK" [] none = .ok ⟨some head, false⟩ ∧ head.code = 200 ∧
      ∀ length context, ∃ line others,
        Bytes.lines (assembleHead head length context).1 = line :: others ∧
          ¬ SpellsCode context.version [] 200 line := by
  have called : StartResponse.new.call "+200 OK" [] none =
      .ok ⟨some ⟨"+200 OK", 200, [], none, false⟩, false⟩ := rfl
  obtain ⟨head, sign, k, pending, -, padded, lines⟩ := StartResponse.call_statusLine called
  cases pending
  have plus : (Bytes.ofText (Text.trim "+200 OK")).head? = some 43 := by decide
  have lead : sign ++ List.replicate k 48 ≠ [] := padded.2 ⟨43, plus, .inl rfl⟩
  refine ⟨_, called, rfl, fun length context => ?_⟩
  obtain ⟨line, others, read, -, -, bare⟩ := lines length context
  exact ⟨line, others, read, fun spelled => lead (bare.1 spelled)⟩

end EmbeddedHttp
