/-
# EmbeddedHttp.Proofs.Text.Lossy -- what lossy reading keeps of a list of tokens

Lossy reading may change the octets that are not ASCII, but it neither makes ASCII octets of
them nor takes any away: a run of such octets stays one, in the same place (`Blurred`).  A comma
list is cut, trimmed and compared at ASCII octets alone, so it names the same tokens before and
after (`Utf8.hasToken_decodeLossy`).
-/
import EmbeddedHttp.Proofs.Message.Codings
import EmbeddedHttp.Proofs.Text.Numeral
import Mathlib.Data.List.Forall2

namespace EmbeddedHttp

set_option autoImplicit false

namespace Bytes

/-- A run of octets that are not ASCII. -/
structure Foreign (s : Bytes) : Prop where
  nonempty : s ≠ []
  high : ∀ b ∈ s, 128 ≤ b.toNat

/-- The same ASCII octets in the same order, with runs of other octets in the same places. -/
inductive Blurred : Bytes → Bytes → Prop where
  | nil : Blurred [] []
  | ascii {b : UInt8} {s t : Bytes} (low : b.toNat < 128) (rest : Blurred s t) :
      Blurred (b :: s) (b :: t)
  | foreign {f g s t : Bytes} (one : Foreign f) (other : Foreign g) (rest : Blurred s t) :
      Blurred (f ++ s) (g ++ t)

theorem Foreign.append {f g : Bytes} (one : Foreign f) (other : Foreign g) : Foreign (f ++ g) where
  nonempty none := one.nonempty (List.append_eq_nil_iff.1 none).1
  high b member := (List.mem_append.1 member).elim (one.high b) (other.high b)

theorem Foreign.reverse {f : Bytes} (foreign : Foreign f) : Foreign f.reverse where
  nonempty none := foreign.nonempty (List.reverse_eq_nil_iff.1 none)
  high b member := foreign.high b (List.mem_reverse.1 member)

theorem Foreign.singleton {b : UInt8} (high : 128 ≤ b.toNat) : Foreign [b] where
  nonempty := List.cons_ne_nil b []
  high c member := by rwa [List.mem_singleton.1 member]

namespace Blurred

variable {s t s' t' : Bytes}

/-- ASCII octets are all there. -/
theorem eq_of_ascii (blurred : Blurred s t) (ascii : ∀ b ∈ s, b.toNat < 128) : t = s := by
  induction blurred with
  | nil => rfl
  | ascii low rest ih => rw [ih fun b member => ascii b (List.mem_cons_of_mem _ member)]
  | @foreign f g s t one other rest ih =>
      obtain ⟨b, more, rfl⟩ := List.exists_cons_of_ne_nil one.nonempty
      have high := one.high b List.mem_cons_self
      have low := ascii b (List.mem_append_left _ List.mem_cons_self)
      omega

theorem append (front : Blurred s t) (back : Blurred s' t') : Blurred (s ++ s') (t ++ t') := by
  induction front with
  | nil => exact back
  | ascii low rest ih => exact .ascii low ih
  | foreign one other rest ih =>
      rw [List.append_assoc, List.append_assoc]
      exact .foreign one other ih

theorem reverse (blurred : Blurred s t) : Blurred s.reverse t.reverse := by
  induction blurred with
  | nil => exact .nil
  | ascii low rest ih =>
      rw [List.reverse_cons, List.reverse_cons]
      exact ih.append (.ascii low .nil)
  | foreign one other rest ih =>
      rw [List.reverse_append, List.reverse_append]
      have last := Blurred.foreign one.reverse other.reverse .nil
      rw [List.append_nil, List.append_nil] at last
      exact ih.append last

theorem isEmpty (blurred : Blurred s t) : s.isEmpty = t.isEmpty := by
  cases blurred with
  | nil => rfl
  | ascii => rfl
  | foreign one other =>
      rw [List.isEmpty_eq_false_iff.2 fun none => one.nonempty (List.append_eq_nil_iff.1 none).1,
        List.isEmpty_eq_false_iff.2 fun none => other.nonempty (List.append_eq_nil_iff.1 none).1]

/-! ## Comma lists -/

theorem trimFront_of_foreign {f : Bytes} (foreign : Foreign f) (s : Bytes) :
    Bytes.trimFront (f ++ s) = f ++ s := by
  obtain ⟨b, rest, rfl⟩ := List.exists_cons_of_ne_nil foreign.nonempty
  have high := foreign.high b List.mem_cons_self
  have plain : isBlank b = false := by
    refine Bool.eq_false_iff.2 fun blank => ?_
    have low := Text.ascii_of_isBlank blank
    omega
  simp only [List.cons_append, Bytes.trimFront, plain, Bool.false_eq_true, if_false]

theorem trimFront (blurred : Blurred s t) : Blurred (Bytes.trimFront s) (Bytes.trimFront t) := by
  induction blurred with
  | nil => exact .nil
  | @ascii b s t low rest ih =>
      rw [Bytes.trimFront, Bytes.trimFront]
      split
      · exact ih
      · exact .ascii low rest
  | foreign one other rest ih =>
      rw [trimFront_of_foreign one, trimFront_of_foreign other]
      exact .foreign one other rest

theorem trimBlanks (blurred : Blurred s t) : Blurred (Bytes.trimBlanks s) (Bytes.trimBlanks t) :=
  blurred.trimFront.reverse.trimFront.reverse

/-- Octets without a comma go to the first piece. -/
theorem pieces_of_foreign {f : Bytes} (high : ∀ b ∈ f, 128 ≤ b.toNat) {s first : Bytes}
    {others : List Bytes} (cut : Bytes.pieces s = first :: others) :
    Bytes.pieces (f ++ s) = (f ++ first) :: others := by
  induction f with
  | nil => exact cut
  | cons b rest ih =>
      have plain : (b == 44) = false := by
        have above := high b List.mem_cons_self
        rw [beq_eq_false_iff_ne]
        rintro rfl
        exact absurd above (by decide)
      rw [List.cons_append, Bytes.pieces, plain,
        ih fun c member => high c (List.mem_cons_of_mem _ member)]
      rfl

theorem pieces (blurred : Blurred s t) :
    List.Forall₂ Blurred (Bytes.pieces s) (Bytes.pieces t) := by
  induction blurred with
  | nil => exact .cons .nil .nil
  | @ascii b s t low rest ih =>
      rw [Bytes.pieces, Bytes.pieces]
      split
      · exact .cons .nil ih
      · obtain ⟨first, others, cut⟩ := List.exists_cons_of_ne_nil (pieces_ne_nil s)
        obtain ⟨first', others', cut'⟩ := List.exists_cons_of_ne_nil (pieces_ne_nil t)
        rw [cut, cut'] at ih ⊢
        cases ih with
        | cons here behind => exact .cons (.ascii low here) behind
  | @foreign f g s t one other rest ih =>
      obtain ⟨first, others, cut⟩ := List.exists_cons_of_ne_nil (pieces_ne_nil s)
      obtain ⟨first', others', cut'⟩ := List.exists_cons_of_ne_nil (pieces_ne_nil t)
      rw [cut, cut'] at ih
      rw [pieces_of_foreign one.high cut, pieces_of_foreign other.high cut']
      cases ih with
      | cons here behind => exact .cons (.foreign one other here) behind

/-- An ASCII word is not the same as what begins with another octet. -/
theorem not_sameIgnoringCase_of_foreign {f : Bytes} (foreign : Foreign f) (rest : Bytes)
    {word : Bytes} (ascii : ∀ b ∈ word, b.toNat < 128) :
    Bytes.sameIgnoringCase (f ++ rest) word = false := by
  refine Bool.eq_false_iff.2 fun same => ?_
  obtain ⟨b, more, rfl⟩ := List.exists_cons_of_ne_nil foreign.nonempty
  have high := foreign.high b List.mem_cons_self
  rw [Bytes.sameIgnoringCase, beq_iff_eq] at same
  cases word with
  | nil => cases same
  | cons c others =>
      have first : lower b = lower c := (List.cons.inj same).1
      have stays : lower b = b := by
        simp only [lower, UInt8.le_iff_toNat_le, UInt8.reduceToNat]
        exact if_neg (by omega)
      have small : (lower c).toNat < 128 :=
        forall_ascii (P := fun c => (lower c).toNat < 128) (by decide +kernel)
          (ascii c List.mem_cons_self)
      rw [← first, stays] at small
      omega

/-- What is compared with an ASCII word, in any case of its letters, compares the same. -/
theorem sameIgnoringCase (blurred : Blurred s t) {word : Bytes}
    (ascii : ∀ b ∈ word, b.toNat < 128) :
    Bytes.sameIgnoringCase s word = Bytes.sameIgnoringCase t word := by
  induction blurred generalizing word with
  | nil => rfl
  | ascii low rest ih =>
      cases word with
      | nil => rfl
      | cons c others =>
          have behind := ih fun d member => ascii d (List.mem_cons_of_mem _ member)
          simp only [Bytes.sameIgnoringCase, List.map_cons, List.cons_beq_cons] at behind ⊢
          rw [behind]
  | foreign one other rest =>
      rw [not_sameIgnoringCase_of_foreign one _ ascii, not_sameIgnoringCase_of_foreign other _ ascii]

theorem hasToken (blurred : Blurred s t) {token : Bytes} (ascii : ∀ b ∈ token, b.toNat < 128) :
    Bytes.hasToken s token = Bytes.hasToken t token := by
  have each : ∀ {pieces pieces' : List Bytes}, List.Forall₂ Blurred pieces pieces' →
      ((pieces.map Bytes.trimBlanks).filter fun piece => !piece.isEmpty).any
          (fun element => Bytes.sameIgnoringCase element token) =
        ((pieces'.map Bytes.trimBlanks).filter fun piece => !piece.isEmpty).any
          fun element => Bytes.sameIgnoringCase element token := by
    intro pieces pieces' all
    induction all with
    | nil => rfl
    | cons here behind ih =>
        have trimmed := here.trimBlanks
        simp only [List.any_filter] at ih ⊢
        rw [List.map_cons, List.map_cons, List.any_cons, List.any_cons, ih, trimmed.isEmpty,
          trimmed.sameIgnoringCase ascii]
  exact each blurred.pieces

end Blurred

end Bytes

/-! ## Lossy reading -/

namespace Utf8

open Bytes (Foreign Blurred)

/-- The UTF-8 form of characters. -/
def encode (chars : List Char) : Bytes := chars.flatMap String.utf8EncodeChar

/-- The octets that may still come make a character of the bits so far that is not ASCII. -/
def Completes : Nat → Nat → Nat → Nat → Prop
  | 0, bits, low, high => ∀ n, low ≤ n → n ≤ high →
      128 ≤ bits * 64 + (n - 0x80) ∧ (bits * 64 + (n - 0x80)).isValidChar
  | owed + 1, bits, low, high => ∀ n, low ≤ n → n ≤ high →
      Completes owed (bits * 64 + (n - 0x80)) 0x80 0xBF

theorem foreign_encode {c : Char} (high : 128 ≤ c.toNat) : Foreign (String.utf8EncodeChar c) where
  nonempty := String.utf8EncodeChar_ne_nil
  high := Bytes.utf8EncodeChar_high high

/-- The last octet of a character completes it, whatever it is. -/
theorem completes_last {bits : Nat} (some : 2 ≤ bits)
    (valid : bits < 0x360 ∨ 0x37F < bits ∧ bits < 0x4400) : Completes 0 bits 0x80 0xBF := by
  intro n above below
  refine ⟨by omega, ?_⟩
  rw [Nat.isValidChar]
  omega

/-- What a leading octet does: an ASCII octet is a character, and any other is none by itself. -/
theorem lead_cases (b : UInt8) :
    (b.toNat < 128 ∧ lead b = .char (Char.ofNat b.toNat)) ∨
      128 ≤ b.toNat ∧ (lead b = .refuse ∨ ∃ bits owed low high,
        lead b = .more (.within bits owed low high) ∧ 0x80 ≤ low.toNat ∧
          Completes owed bits low.toNat high.toNat) := by
  have octet := b.toNat_lt
  have led := lead_ofNat octet
  rw [UInt8.ofNat_toNat] at led
  rw [led]
  by_cases ascii : b.toNat < 0x80
  · exact .inl ⟨ascii, if_pos ascii⟩
  refine .inr ⟨by omega, ?_⟩
  rw [if_neg ascii]
  -- the leading octets of two, three and four octets, with what may come behind each
  split
  · exact .inl rfl
  split
  · exact .inr ⟨_, _, _, _, rfl, by decide, completes_last (by omega) (by omega)⟩
  split
  · exact .inr ⟨_, _, _, _, rfl, by decide, fun n above below => by
      simp only [UInt8.reduceToNat] at above below
      exact completes_last (by omega) (by omega)⟩
  split
  · exact .inr ⟨_, _, _, _, rfl, by decide, fun n above below => by
      simp only [UInt8.reduceToNat] at above below
      exact completes_last (by omega) (by omega)⟩
  split
  · exact .inr ⟨_, _, _, _, rfl, by decide, fun n above below => by
      simp only [UInt8.reduceToNat] at above below
      exact completes_last (by omega) (by omega)⟩
  split
  · exact .inr ⟨_, _, _, _, rfl, by decide, fun n above below m higher lower => by
      simp only [UInt8.reduceToNat] at above below
      exact completes_last (by omega) (by omega)⟩
  split
  · exact .inr ⟨_, _, _, _, rfl, by decide, fun n above below m higher lower => by
      simp only [UInt8.reduceToNat] at above below
      exact completes_last (by omega) (by omega)⟩
  split
  · exact .inr ⟨_, _, _, _, rfl, by decide, fun n above below m higher lower => by
      simp only [UInt8.reduceToNat] at above below
      exact completes_last (by omega) (by omega)⟩
  · exact .inl rfl

theorem encode_cons (c : Char) (chars : List Char) :
    encode (c :: chars) = String.utf8EncodeChar c ++ encode chars := rfl

/-- What was gathered before stands in front. -/
theorem decodeLossyFrom_done (state : State) (done : List Char) (s : Bytes) :
    decodeLossyFrom state done s = done.reverse ++ decodeLossyFrom state [] s := by
  induction s generalizing state done with
  | nil => cases state <;> simp [decodeLossyFrom]
  | cons b rest ih =>
      have gathered : ∀ (state : State) (front done : List Char),
          decodeLossyFrom state (front ++ done) rest =
            done.reverse ++ decodeLossyFrom state front rest := by
        intro state front done
        rw [ih, ih state front, List.reverse_append, List.append_assoc]
      cases state with
      | start =>
          simp only [decodeLossyFrom]
          cases step .start b with
          | char c => exact gathered .start [c] done
          | more next => exact gathered next [] done
          | refuse => exact gathered .start [replacement] done
      | within bits owed low high =>
          simp only [decodeLossyFrom]
          cases step (.within bits owed low high) b with
          | char c => exact gathered .start [c] done
          | more next => exact gathered next [] done
          | refuse =>
              cases lead b with
              | char c => exact gathered .start [c, replacement] done
              | more next => exact gathered next [replacement] done
              | refuse => exact gathered .start [replacement, replacement] done

/-- What the machine has taken in since the last character. -/
inductive Held : State → Bytes → Prop where
  | start : Held .start []
  | within {bits owed : Nat} {low high : UInt8} {held : Bytes} (foreign : Foreign held)
      (above : 0x80 ≤ low.toNat) (completes : Completes owed bits low.toNat high.toNat) :
      Held (.within bits owed low high) held

theorem foreign_replacement : Foreign (String.utf8EncodeChar replacement) :=
  foreign_encode (by decide)

theorem toNat_ofNat {n : Nat} (valid : n.isValidChar) : (Char.ofNat n).toNat = n := by
  rw [Char.ofNat, dif_pos valid]
  rfl

/-- One octet inside a character completes it, goes on with it, or breaks it off. -/
theorem step_cases {bits owed : Nat} {low high : UInt8} (above : 0x80 ≤ low.toNat)
    (completes : Completes owed bits low.toNat high.toNat) (b : UInt8) :
    (128 ≤ b.toNat ∧ ((∃ c, step (.within bits owed low high) b = .char c ∧ 128 ≤ c.toNat) ∨
        ∃ bits' owed', step (.within bits owed low high) b = .more (.within bits' owed' 0x80 0xBF) ∧
          Completes owed' bits' 0x80 0xBF)) ∨
      step (.within bits owed low high) b = .refuse := by
  by_cases inside : low ≤ b ∧ b ≤ high
  · have range := inside
    rw [UInt8.le_iff_toNat_le, UInt8.le_iff_toNat_le] at range
    refine .inl ⟨by omega, ?_⟩
    cases owed with
    | zero =>
        have whole := completes b.toNat range.1 range.2
        refine .inl ⟨_, by simp only [step, inside, and_self, if_true]; rfl, ?_⟩
        rw [toNat_ofNat whole.2]
        exact whole.1
    | succ owed =>
        exact .inr ⟨_, _, by simp only [step, inside, and_self, if_true],
          completes b.toNat range.1 range.2⟩
  · exact .inr (by simp only [step, inside, if_false])

/-- Behind a character the octets are read on from the start. -/
theorem decodeLossyFrom_lead (b : UInt8) (rest : Bytes) :
    decodeLossyFrom .start [] (b :: rest) =
      match lead b with
      | .char c => c :: decodeLossyFrom .start [] rest
      | .more next => decodeLossyFrom next [] rest
      | .refuse => replacement :: decodeLossyFrom .start [] rest := by
  simp only [decodeLossyFrom, step]
  cases lead b with
  | char c => exact decodeLossyFrom_done .start [c] rest
  | more next => rfl
  | refuse => exact decodeLossyFrom_done .start [replacement] rest

/-- Inside a character an octet that does not belong to it is read again from the start. -/
theorem decodeLossyFrom_within (bits owed : Nat) (low high b : UInt8) (rest : Bytes) :
    decodeLossyFrom (.within bits owed low high) [] (b :: rest) =
      match step (.within bits owed low high) b with
      | .char c => c :: decodeLossyFrom .start [] rest
      | .more next => decodeLossyFrom next [] rest
      | .refuse => replacement :: decodeLossyFrom .start [] (b :: rest) := by
  rw [decodeLossyFrom_lead]
  simp only [decodeLossyFrom]
  cases step (.within bits owed low high) b with
  | char c => exact decodeLossyFrom_done .start [c] rest
  | more next => rfl
  | refuse =>
      cases lead b with
      | char c => exact decodeLossyFrom_done .start [c, replacement] rest
      | more next => exact decodeLossyFrom_done next [replacement] rest
      | refuse => exact decodeLossyFrom_done .start [replacement, replacement] rest

/-- **Lossy reading blurs what is not ASCII and keeps the rest.** -/
theorem decodeLossyFrom_blurred {state : State} {held : Bytes} (holds : Held state held)
    (s : Bytes) : Blurred (held ++ s) (encode (decodeLossyFrom state [] s)) := by
  induction s generalizing state held with
  | nil =>
      cases holds with
      | start => exact .nil
      | within foreign => exact .foreign foreign foreign_replacement .nil
  | cons b rest ih =>
      have leads : Blurred (b :: rest) (encode (decodeLossyFrom .start [] (b :: rest))) := by
        rw [decodeLossyFrom_lead]
        rcases lead_cases b with ⟨low, led⟩ | ⟨high, led | ⟨_, _, _, _, led, above, completes⟩⟩ <;>
          rw [led]
        · have char : (Char.ofNat b.toNat).toNat = b.toNat := toNat_ofNat (.inl (by omega))
          rw [encode_cons, Bytes.utf8EncodeChar_ascii (by omega), char, Nat.toUInt8,
            UInt8.ofNat_toNat]
          exact .ascii low (ih .start)
        · exact .foreign (.singleton high) foreign_replacement (ih .start)
        · exact ih (.within (.singleton high) above completes)
      cases holds with
      | start => exact leads
      | within foreign above completes =>
          rw [decodeLossyFrom_within]
          rcases step_cases above completes b with
            ⟨high, ⟨c, stepped, large⟩ | ⟨_, _, stepped, further⟩⟩ | stepped <;> rw [stepped]
          · have joined := foreign.append (.singleton high)
            have blurred := Blurred.foreign joined (foreign_encode large) (ih .start)
            rwa [List.append_assoc] at blurred
          · have inside : Held (.within _ _ 0x80 0xBF) _ :=
              .within (foreign.append (.singleton high)) (by decide) further
            have blurred := ih inside
            rwa [List.append_assoc] at blurred
          · exact .foreign foreign foreign_replacement leads

theorem blurred_decodeLossy (s : Bytes) : Blurred s (Bytes.ofText (decodeLossy s)) := by
  rw [decodeLossy, Bytes.ofText_ofList]
  exact decodeLossyFrom_blurred .start s

/-- ASCII is read as it is. -/
theorem ofText_decodeLossy {s : Bytes} (ascii : ∀ b ∈ s, b.toNat < 128) :
    Bytes.ofText (decodeLossy s) = s :=
  (blurred_decodeLossy s).eq_of_ascii ascii

/-- **A comma list names the same ASCII tokens when it is read as text.** -/
theorem hasToken_decodeLossy (s : Bytes) {token : Bytes} (ascii : ∀ b ∈ token, b.toNat < 128) :
    Bytes.hasToken (Bytes.ofText (decodeLossy s)) token = Bytes.hasToken s token :=
  ((blurred_decodeLossy s).hasToken ascii).symm

/-- A name is the same as an ASCII word when it is read as text. -/
theorem sameIgnoringCase_decodeLossy (s : Bytes) {word : String} (ascii : Text.isAscii word = true) :
    Text.sameIgnoringCase (decodeLossy s) word =
      Bytes.sameIgnoringCase s (Bytes.ofAscii word) := by
  have low : ∀ b ∈ Bytes.ofAscii word, b.toNat < 128 := by
    intro b member
    obtain ⟨c, inWord, rfl⟩ := List.mem_map.1 member
    have small : c.toNat < 128 := by simpa using List.all_eq_true.1 ascii c inWord
    rwa [Nat.toUInt8, UInt8.toNat_ofNat_of_lt' (Nat.lt_trans small (by decide))]
  rw [← Bytes.sameIgnoringCase_ofText, ← Bytes.ofAscii_eq_ofText ascii,
    (blurred_decodeLossy s).sameIgnoringCase low]

end Utf8

end EmbeddedHttp
