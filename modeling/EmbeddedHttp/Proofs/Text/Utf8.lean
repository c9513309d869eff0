/-
# EmbeddedHttp.Proofs.Text.Utf8 -- text survives its UTF-8 form

The machine that reads UTF-8 reads the form of one character as that character
(`readChar_encode`), so a text is well formed in its form and comes back from it
(`valid_ofText`, `decodeLossy_ofText`).
-/
import EmbeddedHttp.Text.Utf8

namespace EmbeddedHttp.Utf8

set_option autoImplicit false

/-- The character whose octets these are, from the state that the machine is in. -/
def readChar : State → Bytes → Option Char
  | _, [] => none
  | state, b :: rest =>
      match step state b with
      | .char c => if rest = [] then some c else none
      | .more next => readChar next rest
      | .refuse => none

theorem decodeFrom_cons (state : State) (done : List Char) (b : UInt8) (rest : Bytes) :
    decodeFrom state done (b :: rest) =
      match step state b with
      | .char c => decodeFrom .start (c :: done) rest
      | .more next => decodeFrom next done rest
      | .refuse => none := by
  cases state <;> rfl

theorem decodeFrom_of_readChar {state : State} {octets : Bytes} {c : Char}
    (read : readChar state octets = some c) (done : List Char) (rest : Bytes) :
    decodeFrom state done (octets ++ rest) = decodeFrom .start (c :: done) rest := by
  induction octets generalizing state with
  | nil => simp [readChar] at read
  | cons b more ih =>
      rw [List.cons_append, decodeFrom_cons]
      rw [readChar] at read
      cases moved : step state b with
      | char d =>
          rw [moved] at read
          obtain ⟨rfl, rfl⟩ : more = [] ∧ d = c := by simpa using read
          rfl
      | more next => exact ih (by simpa [moved] using read)
      | refuse => simp [moved] at read

theorem decodeLossyFrom_of_readChar {state : State} {octets : Bytes} {c : Char}
    (read : readChar state octets = some c) (done : List Char) (rest : Bytes) :
    decodeLossyFrom state done (octets ++ rest) = decodeLossyFrom .start (c :: done) rest := by
  induction octets generalizing state with
  | nil => simp [readChar] at read
  | cons b more ih =>
      rw [readChar] at read
      cases moved : step state b with
      | char d =>
          rw [moved] at read
          obtain ⟨rfl, rfl⟩ : more = [] ∧ d = c := by simpa using read
          cases state <;> simp [decodeLossyFrom, moved]
      | more next =>
          have within : readChar next more = some c := by simpa [moved] using read
          have further := ih within
          cases state <;> simp [decodeLossyFrom, moved, further]
      | refuse => simp [moved] at read

/-! ## One character -/

theorem step_ofNat (bits owed : Nat) (low high : UInt8) {n : Nat} (octet : n < 256)
    (above : low.toNat ≤ n) (below : n ≤ high.toNat) :
    step (.within bits owed low high) (UInt8.ofNat n) =
      match owed with
      | 0 => .char (Char.ofNat (bits * 64 + (n - 0x80)))
      | owed + 1 => .more (.within (bits * 64 + (n - 0x80)) owed 0x80 0xBF) := by
  have value : (UInt8.ofNat n).toNat = n := by simp [octet]
  have inside : low ≤ UInt8.ofNat n ∧ UInt8.ofNat n ≤ high := by
    simp only [UInt8.le_iff_toNat_le, value]
    exact ⟨above, below⟩
  cases owed <;> simp only [step, inside, and_self, if_true, value]

/-- A leading octet, by its value. -/
theorem lead_ofNat {n : Nat} (octet : n < 256) :
    lead (UInt8.ofNat n) =
      if n < 0x80 then .char (Char.ofNat n)
      else if n < 0xC2 then .refuse
      else if n < 0xE0 then .more (.within (n - 0xC0) 0 0x80 0xBF)
      else if n = 0xE0 then .more (.within 0 1 0xA0 0xBF)
      else if n = 0xED then .more (.within 13 1 0x80 0x9F)
      else if n < 0xF0 then .more (.within (n - 0xE0) 1 0x80 0xBF)
      else if n = 0xF0 then .more (.within 0 2 0x90 0xBF)
      else if n < 0xF4 then .more (.within (n - 0xF0) 2 0x80 0xBF)
      else if n = 0xF4 then .more (.within 4 2 0x80 0x8F)
      else .refuse := by
  have value : (UInt8.ofNat n).toNat = n := by simp [octet]
  have equal : ∀ k : UInt8, (UInt8.ofNat n = k) ↔ n = k.toNat := by
    intro k
    rw [← UInt8.toNat_inj, value]
  simp only [lead, UInt8.lt_iff_toNat_lt, beq_iff_eq, equal, value, UInt8.reduceToNat]

theorem readChar_lead {n : Nat} {next : State} {rest : Bytes}
    (led : lead (UInt8.ofNat n) = .more next) :
    readChar .start (UInt8.ofNat n :: rest) = readChar next rest := by
  simp only [readChar, step, led]

/-- The last octet of a character. -/
theorem readChar_last (bits : Nat) (low high : UInt8) {n v : Nat} (octet : n < 256)
    (above : low.toNat ≤ n) (below : n ≤ high.toNat) (value : bits * 64 + (n - 0x80) = v) :
    readChar (.within bits 0 low high) [UInt8.ofNat n] = some (Char.ofNat v) := by
  simp only [readChar, step_ofNat bits 0 low high octet above below, if_true, value]

/-- An octet inside a character. -/
theorem readChar_within (bits owed : Nat) (low high : UInt8) {n : Nat} (octet : n < 256)
    (above : low.toNat ≤ n) (below : n ≤ high.toNat) (rest : Bytes) :
    readChar (.within bits (owed + 1) low high) (UInt8.ofNat n :: rest) =
      readChar (.within (bits * 64 + (n - 0x80)) owed 0x80 0xBF) rest := by
  simp only [readChar, step_ofNat bits (owed + 1) low high octet above below]

theorem readChar_two {v : Nat} (low : 0x80 ≤ v) (high : v < 0x800) :
    readChar .start [UInt8.ofNat (v / 64 % 0x20 + 0xc0), UInt8.ofNat (v % 0x40 + 0x80)] =
      some (Char.ofNat v) := by
  have led : lead (UInt8.ofNat (v / 64 % 0x20 + 0xc0)) = .more (.within (v / 64) 0 0x80 0xBF) := by
    rw [lead_ofNat (by omega), if_neg (by omega), if_neg (by omega), if_pos (by omega)]
    simp only [Nat.add_sub_cancel]
    congr 2
    omega
  rw [readChar_lead led]
  exact readChar_last _ _ _ (by omega) (by simp) (by simp; omega) (by omega)

/-- The leading octet of three narrows the second: the forms that a shorter one could
replace are refused, and so are the surrogates. -/
theorem readChar_three {v : Nat} (low : 0x800 ≤ v) (high : v < 0x10000)
    (scalar : v < 0xD800 ∨ 0xDFFF < v) :
    readChar .start [UInt8.ofNat (v / 4096 % 0x10 + 0xe0), UInt8.ofNat (v / 64 % 0x40 + 0x80),
      UInt8.ofNat (v % 0x40 + 0x80)] = some (Char.ofNat v) := by
  have first : v / 4096 % 0x10 + 0xe0 < 256 := by omega
  have middle : v / 64 % 64 + 0x80 < 256 := by omega
  have finish : ∀ bits, bits = v / 4096 →
      readChar (.within (bits * 64 + (v / 64 % 64 + 0x80 - 0x80)) 0 0x80 0xBF)
        [UInt8.ofNat (v % 64 + 0x80)] = some (Char.ofNat v) := by
    intro bits same
    exact readChar_last _ _ _ (by omega) (by simp) (by simp; omega) (by omega)
  -- 0 and 13 are the leading values that narrow the second octet
  by_cases zero : v / 4096 = 0
  · have led : lead (UInt8.ofNat (v / 4096 % 0x10 + 0xe0)) = .more (.within 0 1 0xA0 0xBF) := by
      rw [lead_ofNat first, if_neg (by omega), if_neg (by omega), if_neg (by omega),
        if_pos (by omega)]
    rw [readChar_lead led, readChar_within _ _ _ _ middle (by simp; omega) (by simp; omega)]
    exact finish 0 zero.symm
  by_cases surrogate : v / 4096 = 13
  · have led : lead (UInt8.ofNat (v / 4096 % 0x10 + 0xe0)) = .more (.within 13 1 0x80 0x9F) := by
      rw [lead_ofNat first, if_neg (by omega), if_neg (by omega), if_neg (by omega),
        if_neg (by omega), if_pos (by omega)]
    rw [readChar_lead led, readChar_within _ _ _ _ middle (by simp) (by simp; omega)]
    exact finish 13 surrogate.symm
  · have led : lead (UInt8.ofNat (v / 4096 % 0x10 + 0xe0)) =
        .more (.within (v / 4096 % 0x10 + 0xe0 - 0xe0) 1 0x80 0xBF) := by
      rw [lead_ofNat first, if_neg (by omega), if_neg (by omega), if_neg (by omega),
        if_neg (by omega), if_neg (by omega), if_pos (by omega)]
    rw [readChar_lead led, readChar_within _ _ _ _ middle (by simp) (by simp; omega)]
    exact finish _ (by omega)

/-- The leading octet of four narrows the second: the forms that a shorter one could
replace are refused, and so is what lies above the last character. -/
theorem readChar_four {v : Nat} (low : 0x10000 ≤ v) (high : v < 0x110000) :
    readChar .start [UInt8.ofNat (v / 262144 % 0x08 + 0xf0),
      UInt8.ofNat (v / 4096 % 0x40 + 0x80), UInt8.ofNat (v / 64 % 0x40 + 0x80),
      UInt8.ofNat (v % 0x40 + 0x80)] = some (Char.ofNat v) := by
  have first : v / 262144 % 0x08 + 0xf0 < 256 := by omega
  have second : v / 4096 % 64 + 0x80 < 256 := by omega
  have finish : ∀ bits, bits = v / 262144 →
      readChar (.within (bits * 64 + (v / 4096 % 64 + 0x80 - 0x80)) 1 0x80 0xBF)
        [UInt8.ofNat (v / 64 % 64 + 0x80), UInt8.ofNat (v % 64 + 0x80)] =
          some (Char.ofNat v) := by
    intro bits same
    rw [readChar_within _ _ _ _ (by omega) (by simp) (by simp; omega)]
    exact readChar_last _ _ _ (by omega) (by simp) (by simp; omega) (by omega)
  -- 0 and 4 are the leading values that narrow the second octet
  by_cases zero : v / 262144 = 0
  · have led : lead (UInt8.ofNat (v / 262144 % 0x08 + 0xf0)) = .more (.within 0 2 0x90 0xBF) := by
      rw [lead_ofNat first, if_neg (by omega), if_neg (by omega), if_neg (by omega),
        if_neg (by omega), if_neg (by omega), if_neg (by omega), if_pos (by omega)]
    rw [readChar_lead led, readChar_within _ _ _ _ second (by simp; omega) (by simp; omega)]
    exact finish 0 zero.symm
  by_cases top : v / 262144 = 4
  · have led : lead (UInt8.ofNat (v / 262144 % 0x08 + 0xf0)) = .more (.within 4 2 0x80 0x8F) := by
      rw [lead_ofNat first, if_neg (by omega), if_neg (by omega), if_neg (by omega),
        if_neg (by omega), if_neg (by omega), if_neg (by omega), if_neg (by omega),
        if_neg (by omega), if_pos (by omega)]
    rw [readChar_lead led, readChar_within _ _ _ _ second (by simp) (by simp; omega)]
    exact finish 4 top.symm
  · have led : lead (UInt8.ofNat (v / 262144 % 0x08 + 0xf0)) =
        .more (.within (v / 262144 % 0x08 + 0xf0 - 0xf0) 2 0x80 0xBF) := by
      rw [lead_ofNat first, if_neg (by omega), if_neg (by omega), if_neg (by omega),
        if_neg (by omega), if_neg (by omega), if_neg (by omega), if_neg (by omega),
        if_pos (by omega)]
    rw [readChar_lead led, readChar_within _ _ _ _ second (by simp) (by simp; omega)]
    exact finish _ (by omega)

/-- **The octets of a character read as that character.** -/
theorem readChar_encode (c : Char) : readChar .start (String.utf8EncodeChar c) = some c := by
  have scalar : c.val.toNat < 0xD800 ∨ 0xDFFF < c.val.toNat ∧ c.val.toNat < 0x110000 := c.valid
  have back : Char.ofNat c.val.toNat = c := Char.ofNat_toNat c
  unfold String.utf8EncodeChar
  generalize c.val.toNat = v at scalar back ⊢
  rw [← back]
  simp only
  split
  · have led : lead (UInt8.ofNat v) = .char (Char.ofNat v) := by
      rw [lead_ofNat (by omega), if_pos (by omega)]
    simp [readChar, step, led]
  split
  · exact readChar_two (by omega) (by omega)
  split
  · exact readChar_three (by omega) (by omega) (by omega)
  · exact readChar_four (by omega) (by omega)

/-! ## Whole texts -/

theorem decodeFrom_flatMap (chars done : List Char) :
    decodeFrom .start done (chars.flatMap String.utf8EncodeChar) =
      some (done.reverse ++ chars) := by
  induction chars generalizing done with
  | nil => simp [decodeFrom]
  | cons c rest ih =>
      rw [List.flatMap_cons, decodeFrom_of_readChar (readChar_encode c), ih]
      simp

theorem decodeLossyFrom_flatMap (chars done : List Char) :
    decodeLossyFrom .start done (chars.flatMap String.utf8EncodeChar) = done.reverse ++ chars := by
  induction chars generalizing done with
  | nil => simp [decodeLossyFrom]
  | cons c rest ih =>
      rw [List.flatMap_cons, decodeLossyFrom_of_readChar (readChar_encode c), ih]
      simp

/-- The form of a text is well formed. -/
theorem valid_ofText (text : String) : valid (Bytes.ofText text) = true := by
  simp [valid, Bytes.ofText, decodeFrom_flatMap]

/-- **A text comes back from its form.** -/
theorem decodeLossy_ofText (text : String) : decodeLossy (Bytes.ofText text) = text := by
  simp [decodeLossy, Bytes.ofText, decodeLossyFrom_flatMap]

end EmbeddedHttp.Utf8
