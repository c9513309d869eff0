/-
# EmbeddedHttp.Proofs.Text.Ascii -- the ASCII part of a text and of its octets

In the UTF-8 form of a text the octets below 128 are its ASCII characters and no others
(`ascii_mem_ofText`).  So what is told by ASCII alone is told alike of a text and of its
octets: whether a line end or a colon stands in it, which name it is in any case of its
letters (`sameIgnoringCase_ofText`), and, when it has no other octets, all of it
(`toList_of_ascii`).
-/
import Mathlib.Data.List.Basic
import EmbeddedHttp.Proofs.Text.Utf8
import EmbeddedHttp.Text.Blank

namespace EmbeddedHttp

set_option autoImplicit false

namespace Text

/-- Is every character of the text ASCII? -/
def isAscii (s : String) : Bool :=
  s.toList.all fun c => c.toNat < 128

/-- What holds of the first 128 characters, one by one, holds of every ASCII character. -/
theorem forall_ascii {P : Char → Prop} (each : ∀ n, n < 128 → P (Char.ofNat n)) {c : Char}
    (ascii : c.toNat < 128) : P c := by
  have char := each c.toNat ascii
  rwa [Char.ofNat_toNat] at char

theorem toLower_of_high {c : Char} (high : 128 ≤ c.toNat) : c.toLower = c := by
  have notUpper : ¬ ('A'.val ≤ c.val ∧ c.val ≤ 'Z'.val) := by
    rintro ⟨-, below⟩
    have small : c.toNat ≤ 90 := below
    omega
  exact dif_neg notUpper

end Text

namespace Bytes

/-! ## One character -/

/-- What holds of the first 128 octets, one by one, holds of every ASCII octet. -/
theorem forall_ascii {P : UInt8 → Prop} (each : ∀ n, n < 128 → P (UInt8.ofNat n)) {b : UInt8}
    (ascii : b.toNat < 128) : P b := by
  have octet := each b.toNat ascii
  rwa [UInt8.ofNat_toNat] at octet

/-- The octet of an ASCII character. -/
theorem utf8EncodeChar_ascii {c : Char} (ascii : c.toNat < 128) :
    String.utf8EncodeChar c = [c.toNat.toUInt8] := by
  have small : c.val.toNat ≤ 127 := Nat.le_of_lt_succ ascii
  rw [String.utf8EncodeChar]
  simp only [small, if_true]
  rfl

/-- No octet of another character is ASCII. -/
theorem utf8EncodeChar_high {c : Char} (high : 128 ≤ c.toNat) :
    ∀ b ∈ String.utf8EncodeChar c, 128 ≤ b.toNat := by
  have large : 128 ≤ c.val.toNat := high
  have bound : c.val.toNat < 0x110000 := by
    rcases c.valid with low | ⟨-, top⟩
    · exact Nat.lt_trans low (by decide)
    · exact top
  have octet : ∀ n, 128 ≤ n → n < 256 → 128 ≤ (UInt8.ofNat n).toNat := by
    intro n above below
    rwa [UInt8.toNat_ofNat_of_lt' below]
  intro b member
  unfold String.utf8EncodeChar at member
  generalize c.val.toNat = v at large bound member
  simp only at member
  -- the forms of one, two, three and four octets
  split at member
  · omega
  split at member
  · simp only [List.mem_cons, List.not_mem_nil, or_false] at member
    rcases member with rfl | rfl <;> exact octet _ (by omega) (by omega)
  split at member
  · simp only [List.mem_cons, List.not_mem_nil, or_false] at member
    rcases member with rfl | rfl | rfl <;> exact octet _ (by omega) (by omega)
  · simp only [List.mem_cons, List.not_mem_nil, or_false] at member
    rcases member with rfl | rfl | rfl | rfl <;> exact octet _ (by omega) (by omega)

theorem map_lower_encode (c : Char) :
    (String.utf8EncodeChar c).map lower = String.utf8EncodeChar c.toLower := by
  by_cases ascii : c.toNat < 128
  · have lowered : c.toLower.toNat < 128 ∧ lower c.toNat.toUInt8 = c.toLower.toNat.toUInt8 :=
      Text.forall_ascii (P := fun c =>
        c.toLower.toNat < 128 ∧ lower c.toNat.toUInt8 = c.toLower.toNat.toUInt8)
        (by decide +kernel) ascii
    rw [utf8EncodeChar_ascii ascii, utf8EncodeChar_ascii lowered.1, List.map_singleton, lowered.2]
  · have high : 128 ≤ c.toNat := by omega
    have stays : ∀ b ∈ String.utf8EncodeChar c, lower b = id b := by
      intro b member
      have above := utf8EncodeChar_high high b member
      simp only [lower, UInt8.le_iff_toNat_le, UInt8.reduceToNat, id_eq]
      exact if_neg (by omega)
    rw [Text.toLower_of_high high, List.map_congr_left stays, List.map_id]

/-! ## Whole texts -/

theorem ofText_ofList (chars : List Char) :
    ofText (String.ofList chars) = chars.flatMap String.utf8EncodeChar := by
  rw [ofText, String.toList_ofList]

theorem ofText_injective {s t : String} (same : ofText s = ofText t) : s = t := by
  rw [← Utf8.decodeLossy_ofText s, same, Utf8.decodeLossy_ofText]

/-- The ASCII octets of a text are its ASCII characters. -/
theorem ascii_mem_ofText {s : String} {b : UInt8} (member : b ∈ ofText s)
    (ascii : b.toNat < 128) : Char.ofNat b.toNat ∈ s.toList := by
  obtain ⟨c, inText, inChar⟩ := List.mem_flatMap.1 member
  by_cases low : c.toNat < 128
  · have only : b = c.toNat.toUInt8 := by
      simpa [utf8EncodeChar_ascii low] using inChar
    have value : b.toNat = c.toNat := by
      rw [only]
      exact Nat.mod_eq_of_lt (by omega)
    rwa [value, Char.ofNat_toNat]
  · have above := utf8EncodeChar_high (by omega) b inChar
    omega

/-- A text whose octets are all ASCII has one character for each of them. -/
theorem toList_of_ascii {s : String} (ascii : ∀ b ∈ ofText s, b.toNat < 128) :
    s.toList = (ofText s).map fun b => Char.ofNat b.toNat := by
  have each : ∀ c ∈ s.toList,
      (String.utf8EncodeChar c).map (fun b => Char.ofNat b.toNat) = [c] := by
    intro c inText
    by_cases low : c.toNat < 128
    · have value : c.toNat.toUInt8.toNat = c.toNat := Nat.mod_eq_of_lt (by omega)
      rw [utf8EncodeChar_ascii low, List.map_singleton, value, Char.ofNat_toNat]
    · obtain ⟨b, inChar⟩ : ∃ b, b ∈ String.utf8EncodeChar c :=
        List.exists_mem_of_ne_nil _ String.utf8EncodeChar_ne_nil
      have below := ascii b (List.mem_flatMap.2 ⟨c, inText, inChar⟩)
      have above := utf8EncodeChar_high (by omega) b inChar
      omega
  rw [ofText, List.map_flatMap, List.flatMap_congr each, List.flatMap_singleton']

theorem ofAscii_append (s t : String) : ofAscii (s ++ t) = ofAscii s ++ ofAscii t := by
  rw [ofAscii, String.toList_append, List.map_append]
  rfl

/-- ASCII protocol words are texts. -/
theorem ofAscii_eq_ofText {s : String} (ascii : Text.isAscii s = true) :
    ofAscii s = ofText s := by
  have each : ∀ c ∈ s.toList, String.utf8EncodeChar c = [c.toNat.toUInt8] := by
    intro c inText
    exact utf8EncodeChar_ascii (by simpa using List.all_eq_true.1 ascii c inText)
  rw [ofText, List.flatMap_congr each, ofAscii]
  exact List.map_eq_flatMap

theorem map_lower_ofText (s : String) :
    (ofText s).map lower = ofText (String.ofList (s.toList.map Char.toLower)) := by
  rw [ofText_ofList, ofText, List.map_flatMap, List.flatMap_map]
  simp only [map_lower_encode]

/-- **A name is the same in any case of its letters as a text and as octets.** -/
theorem sameIgnoringCase_ofText (s t : String) :
    sameIgnoringCase (ofText s) (ofText t) = Text.sameIgnoringCase s t := by
  rw [sameIgnoringCase, Text.sameIgnoringCase, map_lower_ofText, map_lower_ofText, Bool.eq_iff_iff,
    beq_iff_eq, beq_iff_eq]
  constructor
  · intro same
    exact String.ofList_injective (ofText_injective same)
  · intro same
    rw [same]

end Bytes

end EmbeddedHttp
