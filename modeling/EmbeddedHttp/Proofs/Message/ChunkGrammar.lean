/-
# EmbeddedHttp.Proofs.Message.ChunkGrammar -- the grammar of a body in chunks

A body in chunks is a word (`Word`): chunks in a row, a line that announces nothing,
trailer lines, and an empty line.  A reader of it is always at some place, and the place
says what of a word was taken so far: `Behind` has one case for each.  One octet leads
from a place to the next and keeps this (`Behind.next`, `Behind.datum`), or it ends a
word (`Behind.finished`).  Nothing that was taken without a fault is beyond hope: from
every place some further octets make it a word (`Behind.completes`).
-/
import EmbeddedHttp.Proofs.Response.ChunkedReading

namespace EmbeddedHttp

set_option autoImplicit false

/-! ## Words -/

namespace Chunk

/-- Chunks in a row and their data.  Each chunk has the size that its line announces, at
least one octet and fewer than `2 ^ 64`. -/
def Row (front data : Bytes) : Prop :=
  ∃ chunks : List (SizeLine × Bytes),
    (∀ chunk ∈ chunks, WrittenBody.ChunkLegal chunk ∧ chunk.2.length < Bytes.wordBound) ∧
      front = chunks.flatMap WrittenBody.chunkOctets ∧ data = chunks.flatMap (·.2)

/-- Chunks, the line that ends them, and some trailer lines. -/
def Ended (front data : Bytes) : Prop :=
  ∃ (row : Bytes) (last : SizeLine) (trailers : List Bytes),
    Row row data ∧ last.Announces 0 ∧ (∀ line ∈ trailers, WrittenBody.TrailerLegal line) ∧
      front = row ++ last.octets ++ trailers.flatMap WrittenBody.trailerOctets

/-- A whole body in chunks, its empty line included, and its data. -/
def Word (word data : Bytes) : Prop :=
  ∃ front, Ended front data ∧ word = front ++ [Bytes.cr, Bytes.lf]

theorem Row.nil : Row [] [] :=
  ⟨[], by simp, rfl, rfl⟩

theorem Row.concat {front data : Bytes} (row : Row front data) {chunk : SizeLine × Bytes}
    (legal : WrittenBody.ChunkLegal chunk) (word : chunk.2.length < Bytes.wordBound) :
    Row (front ++ WrittenBody.chunkOctets chunk) (data ++ chunk.2) := by
  obtain ⟨chunks, all, rfl, rfl⟩ := row
  refine ⟨chunks ++ [chunk], ?_, by simp, by simp⟩
  intro other member
  rcases List.mem_append.1 member with before | last
  · exact all other before
  · rw [List.mem_singleton.1 last]
    exact ⟨legal, word⟩

theorem Row.ended {front data : Bytes} (row : Row front data) {last : SizeLine}
    (announced : last.Announces 0) : Ended (front ++ last.octets) data :=
  ⟨front, last, [], row, announced, by simp, by simp⟩

theorem Ended.concat {front data : Bytes} (ended : Ended front data) {line : Bytes}
    (legal : WrittenBody.TrailerLegal line) :
    Ended (front ++ WrittenBody.trailerOctets line) data := by
  obtain ⟨row, last, trailers, chunks, announced, all, rfl⟩ := ended
  refine ⟨row, last, trailers ++ [line], chunks, announced, ?_, by simp⟩
  intro other member
  rcases List.mem_append.1 member with before | final
  · exact all other before
  · rw [List.mem_singleton.1 final]
    exact legal

theorem Ended.word {front data : Bytes} (ended : Ended front data) :
    Word (front ++ [Bytes.cr, Bytes.lf]) data :=
  ⟨front, ended, rfl⟩

/-- A line without an extension. -/
theorem announces_plain {numeral : Bytes} (nonempty : numeral ≠ [])
    (digit : ∀ b ∈ numeral, (Bytes.hexValue? b).isSome = true) :
    SizeLine.Announces ⟨numeral, []⟩ (Bytes.hexFrom 0 numeral) :=
  ⟨nonempty, digit, rfl, by simp, by simp⟩

theorem announces_zero : SizeLine.Announces ⟨[48], []⟩ 0 :=
  announces_plain (by simp) (by decide +kernel)

theorem Row.lastChunk {front data : Bytes} (row : Row front data) :
    Word (front ++ Outbox.lastChunk) data := by
  have word := (row.ended announces_zero).word
  rw [List.append_assoc] at word
  exact word

/-- Behind a size line there is a way to the end of the body. -/
theorem Row.completes {front data : Bytes} (row : Row front data) {line : SizeLine} {n : Nat}
    (announced : line.Announces n) (size : n < Bytes.wordBound) (taken : Bytes)
    (part : taken.length ≤ n) :
    ∃ more whole, Word (front ++ (line.octets ++ taken) ++ more) whole := by
  by_cases zero : n = 0
  · subst zero
    have nothing : taken = [] := List.eq_nil_of_length_eq_zero (by omega)
    subst nothing
    refine ⟨[Bytes.cr, Bytes.lf], data, ?_⟩
    rw [List.append_nil]
    exact (row.ended announced).word
  · -- any octets will do for the rest of the data
    let filled := taken ++ List.replicate (n - taken.length) 0
    have length : filled.length = n := by
      simp only [filled, List.length_append, List.length_replicate]
      omega
    have legal : WrittenBody.ChunkLegal (line, filled) := by
      constructor
      · intro empty
        rw [← length] at zero
        exact zero (by simp only at empty; rw [empty]; rfl)
      · rw [length]
        exact announced
    refine ⟨List.replicate (n - taken.length) 0 ++ [Bytes.cr, Bytes.lf] ++ Outbox.lastChunk,
      data ++ filled, ?_⟩
    have word := (row.concat legal (by rw [length]; exact size)).lastChunk
    simp only [WrittenBody.chunkOctets, filled, List.append_assoc] at word ⊢
    exact word

end Chunk

theorem Bytes.hexValue?_lt {b : UInt8} {digit : Nat} (hex : hexValue? b = some digit) :
    digit < 16 := by
  unfold hexValue? at hex
  simp only [UInt8.le_iff_toNat_le, UInt8.reduceToNat] at hex
  repeat' split at hex
  all_goals cases hex <;> omega

/-! ## Places -/

namespace Chunk

/-- What of a body was taken at a place, and the data in it. -/
inductive Behind : Place → Bytes → Bytes → Prop where
  | numeral {taken front data : Bytes} (numeral : Bytes) (row : Row front data)
      (digit : ∀ b ∈ numeral, (Bytes.hexValue? b).isSome = true)
      (size : Bytes.hexFrom 0 numeral < Bytes.wordBound) (same : taken = front ++ numeral) :
      Behind (.size (Bytes.hexFrom 0 numeral) numeral.length false) taken data
  | extension {taken front data : Bytes} (line : SizeLine) {n : Nat} (row : Row front data)
      (announced : line.Announces n) (size : n < Bytes.wordBound) (begun : line.extension ≠ [])
      (same : taken = front ++ (line.numeral ++ line.extension)) :
      Behind (.size n line.numeral.length true) taken data
  | sizeFeed {taken front data : Bytes} (line : SizeLine) {n : Nat} (row : Row front data)
      (announced : line.Announces n) (size : n < Bytes.wordBound)
      (same : taken = front ++ (line.numeral ++ line.extension ++ [Bytes.cr])) :
      Behind (.sizeFeed n) taken data
  | data {taken front data : Bytes} (line : SizeLine) (part : Bytes) {n : Nat}
      (row : Row front data) (announced : line.Announces n) (size : n < Bytes.wordBound)
      (short : part.length < n) (same : taken = front ++ (line.octets ++ part)) :
      Behind (.data (n - part.length)) taken (data ++ part)
  | dataReturn {taken front data : Bytes} (chunk : SizeLine × Bytes) (row : Row front data)
      (legal : WrittenBody.ChunkLegal chunk) (size : chunk.2.length < Bytes.wordBound)
      (same : taken = front ++ (chunk.1.octets ++ chunk.2)) :
      Behind .dataReturn taken (data ++ chunk.2)
  | dataFeed {taken front data : Bytes} (chunk : SizeLine × Bytes) (row : Row front data)
      (legal : WrittenBody.ChunkLegal chunk) (size : chunk.2.length < Bytes.wordBound)
      (same : taken = front ++ (chunk.1.octets ++ chunk.2 ++ [Bytes.cr])) :
      Behind .dataFeed taken (data ++ chunk.2)
  | trailer {taken front data : Bytes} (line : Bytes) (ended : Ended front data)
      (inLine : ∀ b ∈ line, b ≠ Bytes.cr) (size : line.length ≤ maxTrailerLine)
      (same : taken = front ++ line) : Behind (.trailer line.length) taken data
  | trailerFeed {taken front data : Bytes} (line : Bytes) (ended : Ended front data)
      (inLine : ∀ b ∈ line, b ≠ Bytes.cr) (size : line.length ≤ maxTrailerLine)
      (same : taken = front ++ (line ++ [Bytes.cr])) :
      Behind (.trailerFeed line.length) taken data

namespace Behind

theorem start {front data : Bytes} (row : Row front data) : Behind Place.start front data :=
  .numeral [] row (by simp) (by decide) (by simp)

/-- One octet of a size. -/
theorem next_numeral {front data numeral : Bytes} {b : UInt8} {later : Place}
    (row : Row front data) (digit : ∀ b ∈ numeral, (Bytes.hexValue? b).isSome = true)
    (size : Bytes.hexFrom 0 numeral < Bytes.wordBound)
    (stepped : (Place.size (Bytes.hexFrom 0 numeral) numeral.length false).step b = .next later) :
    Behind later (front ++ numeral ++ [b]) data := by
  simp only [Place.step, Bool.false_eq_true, if_false, Bool.and_eq_true, decide_eq_true_eq]
    at stepped
  by_cases ended : (b == Bytes.cr) = true ∧ 0 < numeral.length
  · obtain ⟨isReturn, counted⟩ := ended
    rw [if_pos ⟨isReturn, counted⟩, Move.next.injEq] at stepped
    rw [← stepped, beq_iff_eq.1 isReturn]
    exact .sizeFeed ⟨numeral, []⟩ row (announces_plain (List.length_pos_iff.1 counted) digit) size
      (by simp)
  rw [if_neg ended] at stepped
  by_cases begins : (b == 59 || b == Bytes.space || b == Bytes.tab) = true ∧ 0 < numeral.length
  · obtain ⟨opens, counted⟩ := begins
    rw [if_pos ⟨opens, counted⟩, Move.next.injEq] at stepped
    simp only [Bool.or_eq_true, beq_iff_eq, or_assoc] at opens
    have announced : SizeLine.Announces ⟨numeral, [b]⟩ (Bytes.hexFrom 0 numeral) := by
      refine ⟨List.length_pos_iff.1 counted, digit, rfl, by simpa using opens, ?_⟩
      intro c member
      rw [List.mem_singleton.1 member]
      rcases opens with rfl | rfl | rfl <;> decide
    rw [← stepped]
    exact .extension ⟨numeral, [b]⟩ row announced size (by simp) (by simp)
  rw [if_neg begins] at stepped
  cases hex : Bytes.hexValue? b with
  | none =>
      rw [hex] at stepped
      cases stepped
  | some weight =>
      rw [hex] at stepped
      simp only at stepped
      split at stepped
      · cases stepped
      · rename_i room
        have small := Bytes.hexValue?_lt hex
        have bound : Bytes.wordBound = 18446744073709551616 := rfl
        have value : Bytes.hexFrom 0 (numeral ++ [b]) = Bytes.hexFrom 0 numeral * 16 + weight := by
          rw [Bytes.hexFrom_append]
          simp [Bytes.hexFrom, hex]
        have digits : ∀ c ∈ numeral ++ [b], (Bytes.hexValue? c).isSome = true := by
          intro c member
          rcases List.mem_append.1 member with before | last
          · exact digit c before
          · rw [List.mem_singleton.1 last, hex]
            rfl
        have placed := Behind.numeral (numeral ++ [b]) row digits (by omega)
          (List.append_assoc front numeral [b])
        rw [value, List.length_append, List.length_singleton] at placed
        rw [Move.next.injEq] at stepped
        rw [← stepped]
        exact placed

/-- **An octet outside the data leads to the next place.** -/
theorem next {place later : Place} {taken data : Bytes} {b : UInt8}
    (behind : Behind place taken data) (outside : ∀ left, place ≠ .data left)
    (stepped : place.step b = .next later) : Behind later (taken ++ [b]) data := by
  cases behind with
  | numeral numeral row digit size same =>
      rw [same]
      exact next_numeral row digit size stepped
  | @extension _ front _ line n row announced size begun same =>
      have counted : 0 < line.numeral.length := List.length_pos_iff.2 announced.nonempty
      simp only [Place.step, counted, decide_true, Bool.and_true, if_true] at stepped
      split at stepped
      · rename_i isReturn
        cases stepped
        rw [same, beq_iff_eq.1 isReturn]
        exact .sizeFeed line row announced size (by simp)
      · rename_i inLine
        cases stepped
        have longer : SizeLine.Announces ⟨line.numeral, line.extension ++ [b]⟩ n := by
          refine ⟨announced.nonempty, announced.digit, announced.value, ?_, ?_⟩
          · intro c first
            rw [List.head?_append_of_ne_nil _ begun] at first
            exact announced.extension_front c first
          · intro c member
            rcases List.mem_append.1 member with before | last
            · exact announced.extension_line c before
            · rw [List.mem_singleton.1 last]
              rintro rfl
              exact inLine (by decide)
        rw [same]
        exact .extension ⟨line.numeral, line.extension ++ [b]⟩ row longer size (by simp) (by simp)
  | @sizeFeed _ front _ line n row announced size same =>
      simp only [Place.step] at stepped
      split at stepped
      · rename_i isFeed
        have whole : taken ++ [b] = front ++ line.octets := by
          rw [same, beq_iff_eq.1 isFeed, SizeLine.octets]
          simp
        split at stepped
        · rename_i zero
          cases stepped
          subst zero
          exact .trailer [] (row.ended announced) (by simp) (by simp) (by simp [whole])
        · cases stepped
          have placed := Behind.data line [] row announced size (by simp; omega)
            (by rw [List.append_nil] : front ++ line.octets = front ++ (line.octets ++ []))
          rw [List.append_nil] at placed
          rw [whole]
          exact placed
      · cases stepped
  | data line part row announced size short same => exact absurd rfl (outside _)
  | dataReturn chunk row legal size same =>
      simp only [Place.step] at stepped
      split at stepped
      · rename_i isReturn
        cases stepped
        rw [same, beq_iff_eq.1 isReturn]
        exact .dataFeed chunk row legal size (by simp)
      · cases stepped
  | @dataFeed _ front _ chunk row legal size same =>
      simp only [Place.step] at stepped
      split at stepped
      · rename_i isFeed
        cases stepped
        have whole : taken ++ [b] = front ++ WrittenBody.chunkOctets chunk := by
          rw [same, beq_iff_eq.1 isFeed, WrittenBody.chunkOctets]
          simp
        rw [whole]
        exact start (row.concat legal size)
      · cases stepped
  | @trailer _ front _ line ended inLine size same =>
      simp only [Place.step] at stepped
      split at stepped
      · rename_i isReturn
        cases stepped
        rw [same, beq_iff_eq.1 isReturn]
        exact .trailerFeed line ended inLine size (by simp)
      · rename_i other
        split at stepped
        · cases stepped
        · rename_i room
          cases stepped
          have longer : ∀ c ∈ line ++ [b], c ≠ Bytes.cr := by
            intro c member
            rcases List.mem_append.1 member with before | last
            · exact inLine c before
            · rw [List.mem_singleton.1 last]
              rintro rfl
              exact other (by decide)
          have placed := Behind.trailer (line ++ [b]) ended longer (by simp; omega)
            (List.append_assoc front line [b])
          rw [List.length_append, List.length_singleton] at placed
          rw [same]
          exact placed
  | @trailerFeed _ front _ line ended inLine size same =>
      simp only [Place.step] at stepped
      split at stepped
      · rename_i isFeed
        split at stepped
        · cases stepped
        · rename_i long
          cases stepped
          have legal : WrittenBody.TrailerLegal line :=
            ⟨by rintro rfl; exact long rfl, inLine, size⟩
          refine .trailer [] (ended.concat legal) (by simp) (by simp) ?_
          rw [same, beq_iff_eq.1 isFeed, WrittenBody.trailerOctets]
          simp
      · cases stepped

/-- An octet of data. -/
theorem datum {left : Nat} {taken data : Bytes} (behind : Behind (.data left) taken data)
    (b : UInt8) : Behind (Place.afterData left 1) (taken ++ [b]) (data ++ [b]) := by
  cases behind with
  | @data _ front before line part n row announced size short same =>
      rw [same, List.append_assoc before]
      unfold Place.afterData
      split
      · have filled : (part ++ [b]).length = n := by
          rw [List.length_append, List.length_singleton]
          omega
        refine .dataReturn (line, part ++ [b]) row ⟨by simp, ?_⟩ ?_ (by simp)
        · rw [filled]
          exact announced
        · rw [filled]
          exact size
      · have placed := Behind.data line (part ++ [b]) row announced size
          (by rw [List.length_append, List.length_singleton]; omega) rfl
        rw [List.length_append, List.length_singleton, Nat.sub_add_eq] at placed
        simpa using placed

/-- **The last octet of a body makes what was taken a word.** -/
theorem finished {place : Place} {taken data : Bytes} {b : UInt8}
    (behind : Behind place taken data) (stepped : place.step b = .finished) :
    Word (taken ++ [b]) data := by
  cases behind with
  | @trailerFeed _ front _ line ended inLine size same =>
      simp only [Place.step] at stepped
      split at stepped
      · rename_i isFeed
        split at stepped
        · rename_i empty
          rw [List.eq_nil_of_length_eq_zero empty] at same
          have whole : taken ++ [b] = front ++ [Bytes.cr, Bytes.lf] := by
            rw [same, beq_iff_eq.1 isFeed]
            simp
          rw [whole]
          exact ended.word
        · cases stepped
      · cases stepped
  | _ =>
      simp only [Place.step] at stepped
      repeat' split at stepped
      all_goals cases stepped

/-- **What was taken is the beginning of a word.** -/
theorem completes {place : Place} {taken data : Bytes} (behind : Behind place taken data) :
    ∃ more whole, Word (taken ++ more) whole := by
  cases behind with
  | @numeral _ front _ numeral row digit size same =>
      by_cases none : numeral = []
      · subst none
        refine ⟨Outbox.lastChunk, data, ?_⟩
        rw [same, List.append_nil]
        exact row.lastChunk
      · obtain ⟨more, whole, word⟩ := row.completes (announces_plain none digit) size
          [] (Nat.zero_le _)
        refine ⟨[Bytes.cr, Bytes.lf] ++ more, whole, ?_⟩
        rw [same]
        simpa [SizeLine.octets] using word
  | extension line row announced size begun same =>
      obtain ⟨more, whole, word⟩ := row.completes announced size [] (Nat.zero_le _)
      refine ⟨[Bytes.cr, Bytes.lf] ++ more, whole, ?_⟩
      rw [same]
      simpa [SizeLine.octets] using word
  | sizeFeed line row announced size same =>
      obtain ⟨more, whole, word⟩ := row.completes announced size [] (Nat.zero_le _)
      refine ⟨[Bytes.lf] ++ more, whole, ?_⟩
      rw [same]
      simpa [SizeLine.octets] using word
  | data line part row announced size short same =>
      obtain ⟨more, whole, word⟩ := row.completes announced size part (Nat.le_of_lt short)
      exact ⟨more, whole, by rw [same]; exact word⟩
  | @dataReturn _ _ before chunk row legal size same =>
      refine ⟨[Bytes.cr, Bytes.lf] ++ Outbox.lastChunk, before ++ chunk.2, ?_⟩
      rw [same]
      simpa [WrittenBody.chunkOctets] using (row.concat legal size).lastChunk
  | @dataFeed _ _ before chunk row legal size same =>
      refine ⟨[Bytes.lf] ++ Outbox.lastChunk, before ++ chunk.2, ?_⟩
      rw [same]
      simpa [WrittenBody.chunkOctets] using (row.concat legal size).lastChunk
  | @trailer _ front _ line ended inLine size same =>
      by_cases empty : line = []
      · subst empty
        refine ⟨[Bytes.cr, Bytes.lf], data, ?_⟩
        rw [same, List.append_nil]
        exact ended.word
      · refine ⟨[Bytes.cr, Bytes.lf] ++ [Bytes.cr, Bytes.lf], data, ?_⟩
        rw [same]
        simpa [WrittenBody.trailerOctets] using (ended.concat ⟨empty, inLine, size⟩).word
  | @trailerFeed _ front _ line ended inLine size same =>
      by_cases empty : line = []
      · subst empty
        refine ⟨[Bytes.lf], data, ?_⟩
        rw [same]
        simpa using ended.word
      · refine ⟨[Bytes.lf] ++ [Bytes.cr, Bytes.lf], data, ?_⟩
        rw [same]
        simpa [WrittenBody.trailerOctets] using (ended.concat ⟨empty, inLine, size⟩).word

end Behind

end Chunk

end EmbeddedHttp
