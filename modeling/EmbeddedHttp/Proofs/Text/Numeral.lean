/-
# EmbeddedHttp.Proofs.Text.Numeral -- decimal numerals, as text and as octets

A number is written as the numeral that denotes it (`decimalNumeral_ofNat`).  A numeral in
text may have a plus sign and any white space around it, and one on the wire only ASCII
blanks; what is a numeral by the rule of the wire is one in text too, of the same number
(`numeral?_of_digits`).
-/
import EmbeddedHttp.Proofs.Message.FieldReading
import EmbeddedHttp.Proofs.Text.Ascii
import EmbeddedHttp.Text.Numeral
import Mathlib.Data.List.Induction
import Mathlib.Data.Nat.Digits.Defs

namespace EmbeddedHttp

set_option autoImplicit false

/-- What is dropped at the two ends of a list is what may be dropped there. -/
theorem trimmed_split {α : Type} (drops : α → Bool) (s : List α) :
    ∃ front back, s = front ++ ((s.dropWhile drops).reverse.dropWhile drops).reverse ++ back ∧
      (∀ c ∈ front, drops c = true) ∧ ∀ c ∈ back, drops c = true := by
  have dropped : ∀ t : List α, ∀ c ∈ t.takeWhile drops, drops c = true :=
    fun t c member => List.all_eq_true.1 List.all_takeWhile c member
  refine ⟨s.takeWhile drops, ((s.dropWhile drops).reverse.takeWhile drops).reverse, ?_,
    dropped s, fun c member => dropped _ c (List.mem_reverse.1 member)⟩
  rw [List.append_assoc, ← List.reverse_append, List.takeWhile_append_dropWhile,
    List.reverse_reverse, List.takeWhile_append_dropWhile]

/-! ## Writing -/

namespace Bytes

theorem decimalFrom_append (value : Nat) (first second : Bytes) :
    decimalFrom value (first ++ second) = decimalFrom (decimalFrom value first) second := by
  induction first generalizing value with
  | nil => rfl
  | cons b rest ih => exact ih _

theorem decimalFrom_singleton (value : Nat) (b : UInt8) :
    decimalFrom value [b] = value * 10 + (b.toNat - 48) := rfl

/-- The value of digits, as that of the list of what each of them counts, the last one first. -/
theorem decimalFrom_ofDigits (value : Nat) (digits : Bytes) :
    decimalFrom value digits =
      Nat.ofDigits 10 (digits.reverse.map fun b => b.toNat - 48) + 10 ^ digits.length * value := by
  induction digits generalizing value with
  | nil =>
      change value = _
      simp
  | cons b rest ih =>
      have first : decimalFrom value (b :: rest) = decimalFrom (value * 10 + (b.toNat - 48)) rest :=
        decimalFrom_append value [b] rest
      rw [first, ih, List.reverse_cons, List.map_append, Nat.ofDigits_append,
        List.length_map, List.length_reverse, List.map_singleton, Nat.ofDigits_singleton,
        List.length_cons, Nat.pow_succ]
      ring

theorem digitChar_octet : ∀ digit < 10,
    isDigit digit.digitChar.toNat.toUInt8 = true ∧
      digit.digitChar.toNat.toUInt8.toNat - 48 = digit := by
  decide

theorem ofNat_eq (n : Nat) :
    ofNat n =
      if n < 10 then [n.digitChar.toNat.toUInt8]
      else ofNat (n / 10) ++ [(n % 10).digitChar.toNat.toUInt8] := by
  have digits : ∀ n, ofNat n = (Nat.toDigits 10 n).map fun c => c.toNat.toUInt8 := by
    intro n
    simp [ofNat, ofAscii, toString, Nat.repr]
  rw [digits, digits, Nat.toDigits_eq_if (by decide)]
  split
  · rfl
  · simp

/-- A number is written as a numeral that denotes it. -/
theorem decimalNumeral_ofNat (n : Nat) : DecimalNumeral (ofNat n) n := by
  induction n using Nat.strongRecOn with
  | ind n ih =>
      rw [ofNat_eq]
      split
      · rename_i small
        obtain ⟨digit, value⟩ := digitChar_octet n small
        refine ⟨by simp, ?_, ?_⟩
        · intro b member
          rwa [List.mem_singleton.1 member]
        · rw [decimalFrom_singleton, value, Nat.zero_mul, Nat.zero_add]
      · obtain ⟨lastDigit, lastValue⟩ := digitChar_octet (n % 10) (by omega)
        have front := ih (n / 10) (by omega)
        refine ⟨by simp, ?_, ?_⟩
        · intro b member
          rcases List.mem_append.1 member with earlier | last
          · exact front.digit b earlier
          · rwa [List.mem_singleton.1 last]
        · rw [decimalFrom_append, front.value, decimalFrom_singleton, lastValue]
          omega

theorem octet_of_isDigit {b : UInt8} (digit : isDigit b = true) :
    b.toNat - 48 < 10 ∧ (b.toNat - 48).digitChar.toNat.toUInt8 = b := by
  simp only [isDigit, Bool.and_eq_true, decide_eq_true_eq, UInt8.le_iff_toNat_le,
    UInt8.reduceToNat] at digit
  have each : ∀ n, n < 128 → isDigit (UInt8.ofNat n) = true →
      ((UInt8.ofNat n).toNat - 48).digitChar.toNat.toUInt8 = UInt8.ofNat n := by
    decide +kernel
  refine ⟨by omega, ?_⟩
  have same := each b.toNat (by omega)
  rw [UInt8.ofNat_toNat] at same
  exact same (by simp [isDigit, UInt8.le_iff_toNat_le, digit])

/-- **Digits are zeros and then the shortest numeral** of the number that they denote. -/
theorem DecimalNumeral.padded {digits : Bytes} {n : Nat} (numeral : DecimalNumeral digits n) :
    ∃ k, digits = List.replicate k 48 ++ ofNat n := by
  induction digits using List.reverseRecOn generalizing n with
  | nil => exact absurd rfl numeral.nonempty
  | append_singleton front b ih =>
      obtain ⟨-, digit, value⟩ := numeral
      obtain ⟨small, octet⟩ := octet_of_isDigit (digit b (by simp))
      have alone : ofNat (b.toNat - 48) = [b] := by rw [ofNat_eq, if_pos small, octet]
      rw [decimalFrom_append, decimalFrom_singleton] at value
      generalize headed : decimalFrom 0 front = m at value
      by_cases nothing : front = []
      · subst nothing
        obtain rfl : 0 = m := headed
        exact ⟨0, by rw [← value, Nat.zero_mul, Nat.zero_add, alone]; rfl⟩
      obtain ⟨k, padded⟩ := ih ⟨nothing, fun c member => digit c (by simp [member]), headed⟩
      cases m with
      | zero =>
          -- all digits in front of the last one are zeros
          refine ⟨k + 1, ?_⟩
          rw [padded, ← value, Nat.zero_mul, Nat.zero_add, alone, List.replicate_succ']
          rfl
      | succ m =>
          refine ⟨k, ?_⟩
          have front_eq : n / 10 = m + 1 := by omega
          have last_eq : n % 10 = b.toNat - 48 := by omega
          rw [padded, ofNat_eq n, if_neg (by omega), front_eq, last_eq, octet, List.append_assoc]

/-! ## Trimming -/

theorem trimFront_eq (s : Bytes) : trimFront s = s.dropWhile isBlank := by
  induction s with
  | nil => rfl
  | cons b rest ih =>
      rw [trimFront, List.dropWhile_cons, ih]

/-- Only blanks are trimmed. -/
theorem trimBlanks_split (s : Bytes) :
    ∃ front back, s = front ++ trimBlanks s ++ back ∧
      (∀ b ∈ front, isBlank b = true) ∧ ∀ b ∈ back, isBlank b = true := by
  rw [trimBlanks, trimFront_eq, trimFront_eq]
  exact trimmed_split isBlank s

/-- The blanks around what neither starts nor ends with one are trimmed. -/
theorem trimBlanks_among {front middle back : Bytes} (before : ∀ b ∈ front, isBlank b = true)
    (behind : ∀ b ∈ back, isBlank b = true) (ink : ∀ b ∈ middle, isBlank b = false)
    (nonempty : middle ≠ []) : trimBlanks (front ++ middle ++ back) = middle := by
  have stops : ∀ {s : Bytes} (rest : Bytes), s ≠ [] → (∀ b ∈ s, isBlank b = false) →
      trimFront (s ++ rest) = s ++ rest := by
    intro s rest some clean
    obtain ⟨b, others, rfl⟩ := List.exists_cons_of_ne_nil some
    exact trimFront_of_head fun c first => by
      cases first
      exact clean b List.mem_cons_self
  have passes : ∀ {blanks : Bytes} (rest : Bytes), (∀ b ∈ blanks, isBlank b = true) →
      trimFront (blanks ++ rest) = trimFront rest := by
    intro blanks rest blank
    rw [trimFront_eq, trimFront_eq, List.dropWhile_append_of_pos blank]
  have turned : (middle ++ back).reverse = back.reverse ++ (middle.reverse ++ []) := by simp
  rw [trimBlanks, List.append_assoc, passes _ before, stops back nonempty ink, turned,
    passes _ fun b member => behind b (List.mem_reverse.1 member),
    stops [] (by simpa using nonempty) fun b member => ink b (List.mem_reverse.1 member)]
  simp

end Bytes

/-! ## Reading -/

namespace Text

theorem ascii_of_isDigit {b : UInt8} (digit : Bytes.isDigit b = true) : b.toNat < 128 := by
  simp only [Bytes.isDigit, Bool.and_eq_true, decide_eq_true_eq, UInt8.le_iff_toNat_le,
    UInt8.reduceToNat] at digit
  omega

theorem ascii_of_isBlank {b : UInt8} (blank : Bytes.isBlank b = true) : b.toNat < 128 := by
  simp only [Bytes.isBlank, Bool.or_eq_true, beq_iff_eq, or_assoc] at blank
  rcases blank with rfl | rfl | rfl | rfl | rfl <;> decide

/-- A digit on the wire is a digit in text, of the same value. -/
theorem char_of_isDigit {b : UInt8} (digit : Bytes.isDigit b = true) :
    (Char.ofNat b.toNat).isDigit = true ∧ (Char.ofNat b.toNat).toNat - 48 = b.toNat - 48 ∧
      b.toNat - 48 < 10 ∧ isBlank (Char.ofNat b.toNat) = false :=
  Bytes.forall_ascii (P := fun b => Bytes.isDigit b = true →
      (Char.ofNat b.toNat).isDigit = true ∧ (Char.ofNat b.toNat).toNat - 48 = b.toNat - 48 ∧
        b.toNat - 48 < 10 ∧ isBlank (Char.ofNat b.toNat) = false)
    (by decide +kernel) (ascii_of_isDigit digit) digit

/-- A blank on the wire is white space in text. -/
theorem char_of_isBlank {b : UInt8} (blank : Bytes.isBlank b = true) :
    isBlank (Char.ofNat b.toNat) = true :=
  Bytes.forall_ascii (P := fun b => Bytes.isBlank b = true → isBlank (Char.ofNat b.toNat) = true)
    (by decide +kernel) (ascii_of_isBlank blank) blank

theorem digitsFrom?_of_digits {digits : Bytes} (digit : ∀ b ∈ digits, Bytes.isDigit b = true)
    (value : Nat) :
    digitsFrom? 10 value (digits.map fun b => Char.ofNat b.toNat) =
      some (Bytes.decimalFrom value digits) := by
  induction digits generalizing value with
  | nil => rfl
  | cons b rest ih =>
      obtain ⟨first, others⟩ := List.forall_mem_cons.1 digit
      obtain ⟨isDigit, same, small, -⟩ := char_of_isDigit first
      simp only [List.map_cons, digitsFrom?, isDigit, if_true, same, small, ih others]
      rfl

theorem numeral?_unsigned {bound : Nat} {c : Char} {rest : List Char} (unsigned : c ≠ '+') :
    numeral? bound (c :: rest) =
      (digitsFrom? 10 0 (c :: rest)).filter fun value => value < bound := by
  rw [numeral?]
  · rfl
  · intro more same
    exact unsigned (List.cons.inj same).1

/-- The white space around what neither starts nor ends with any is trimmed. -/
theorem trimChars_eq {front middle back : List Char} (before : ∀ c ∈ front, isBlank c = true)
    (behind : ∀ c ∈ back, isBlank c = true) (ink : ∀ c ∈ middle, isBlank c = false)
    (nonempty : middle ≠ []) : trimChars (front ++ middle ++ back) = middle := by
  have stops : ∀ {s : List Char} (rest : List Char), s ≠ [] → (∀ c ∈ s, isBlank c = false) →
      (s ++ rest).dropWhile isBlank = s ++ rest := by
    intro s rest some clean
    obtain ⟨c, others, rfl⟩ := List.exists_cons_of_ne_nil some
    rw [List.cons_append, List.dropWhile_cons, clean c List.mem_cons_self]
    rfl
  have turned : (middle ++ back).reverse = back.reverse ++ (middle.reverse ++ []) := by simp
  rw [trimChars, List.append_assoc, List.dropWhile_append_of_pos before, stops back nonempty ink,
    turned, List.dropWhile_append_of_pos fun c member => behind c (List.mem_reverse.1 member),
    stops [] (by simpa using nonempty) fun c member => ink c (List.mem_reverse.1 member)]
  simp

/-- Only white space is trimmed. -/
theorem trimChars_split (s : List Char) : ∃ front back, s = front ++ trimChars s ++ back ∧
    (∀ c ∈ front, isBlank c = true) ∧ ∀ c ∈ back, isBlank c = true :=
  trimmed_split isBlank s

/-- Digits among blanks are ASCII. -/
theorem ascii_of_trimBlanks {value : Bytes}
    (digit : ∀ b ∈ Bytes.trimBlanks value, Bytes.isDigit b = true) :
    ∀ b ∈ value, b.toNat < 128 := by
  obtain ⟨front, back, split, before, behind⟩ := Bytes.trimBlanks_split value
  intro b member
  rw [split, List.mem_append, List.mem_append] at member
  rcases member with (inFront | inDigits) | inBack
  · exact ascii_of_isBlank (before b inFront)
  · exact ascii_of_isDigit (digit b inDigits)
  · exact ascii_of_isBlank (behind b inBack)

/-- **Digits among blanks are the same numeral in text as on the wire.** -/
theorem numeral?_of_digits {s : String} (nonempty : Bytes.trimBlanks (Bytes.ofText s) ≠ [])
    (digit : ∀ b ∈ Bytes.trimBlanks (Bytes.ofText s), Bytes.isDigit b = true) :
    numeral? Bytes.wordBound (trimChars s.toList) = Head.contentLength? (Bytes.ofText s) := by
  have ascii := ascii_of_trimBlanks digit
  obtain ⟨front, back, split, before, behind⟩ := Bytes.trimBlanks_split (Bytes.ofText s)
  generalize trimmed : Bytes.trimBlanks (Bytes.ofText s) = digits at nonempty digit split
  let char : UInt8 → Char := fun b => Char.ofNat b.toNat
  have inner : trimChars s.toList = digits.map char := by
    rw [Bytes.toList_of_ascii ascii, split, List.map_append, List.map_append]
    refine trimChars_eq ?_ ?_ ?_ (by simpa using nonempty)
    · exact List.forall_mem_map.2 fun b member => char_of_isBlank (before b member)
    · exact List.forall_mem_map.2 fun b member => char_of_isBlank (behind b member)
    · exact List.forall_mem_map.2 fun b member => (char_of_isDigit (digit b member)).2.2.2
  have wire : Head.contentLength? (Bytes.ofText s) =
      if Bytes.decimalFrom 0 digits < Bytes.wordBound then some (Bytes.decimalFrom 0 digits)
      else none := by
    simp [Head.contentLength?, trimmed, nonempty, List.all_eq_true.2 digit]
  obtain ⟨b, rest, rfl⟩ := List.exists_cons_of_ne_nil nonempty
  have unsigned : char b ≠ '+' := by
    intro sign
    have isDigit := (char_of_isDigit (digit b List.mem_cons_self)).1
    rw [show Char.ofNat b.toNat = '+' from sign] at isDigit
    revert isDigit
    decide
  rw [inner, wire, List.map_cons, numeral?_unsigned unsigned, ← List.map_cons,
    digitsFrom?_of_digits digit]
  simp [Option.filter]

end Text

end EmbeddedHttp
