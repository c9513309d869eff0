/-
# EmbeddedHttp.Proofs.Message.BodyReading -- a written body is read back

Behind its head a request is read octet by octet up to its end and not beyond: a
declared body by its length, a body in chunks by the size lines (`octets_sizeLine`),
the data between them (`octets_chunks`) and the trailer (`octets_trailer`).  A whole
request takes a parser between messages back to there (`octets_request`), and so does
a pipeline of them with line ends in between (`octets_pipeline`).
-/
import EmbeddedHttp.Proofs.Message.FieldReading

namespace EmbeddedHttp

set_option autoImplicit false

/-! ## Hexadecimal digits -/

namespace Bytes

theorem hex_facts {b : UInt8} {digit : Nat} (hex : hexValue? b = some digit) :
    (b == cr) = false ∧ (b == 59 || b == space || b == tab) = false := by
  have apart : ∀ other : UInt8, hexValue? other = none → (b == other) = false := by
    intro other none
    rw [beq_eq_false_iff_ne]
    rintro rfl
    simp [none] at hex
  refine ⟨apart _ (by decide), ?_⟩
  simp [apart 59 (by decide), apart space (by decide), apart tab (by decide)]

theorem le_hexFrom (value : Nat) (digits : Bytes) : value ≤ hexFrom value digits := by
  induction digits generalizing value with
  | nil => exact Nat.le_refl _
  | cons b rest ih =>
      have further := ih (value * 16 + (hexValue? b).getD 0)
      simp only [hexFrom]
      omega

end Bytes

namespace Parser

/-! ## Chunks -/

theorem octets_quiet {parser next : Parser} {first : Bytes}
    (read : parser.octets first = ([], .ok next)) (second : Bytes) :
    parser.octets (first ++ second) = next.octets second := by
  rw [octets_append_ok read, List.nil_append]

theorem octets_chunkOctet {place next : Chunk.Place} {b : UInt8}
    (outside : ∀ left, place ≠ .data left) (stepped : place.step b = .next next) (rest : Bytes) :
    (Parser.chunked place).octets (b :: rest) = (Parser.chunked next).octets rest := by
  have alone : (Parser.chunked place).step b [] = ([], .ok (.chunked next, 0)) := by
    cases place with
    | data left => exact absurd rfl (outside left)
    | _ => simp only [step, chunkStep, stepped]
  rw [octets_cons, alone]
  rfl

/-- The digits of a size. -/
theorem octets_numeral (value count : Nat) {numeral : Bytes}
    (digit : ∀ b ∈ numeral, (Bytes.hexValue? b).isSome = true)
    (word : Bytes.hexFrom value numeral < Bytes.wordBound) :
    (Parser.chunked (.size value count false)).octets numeral =
      ([], .ok (.chunked (.size (Bytes.hexFrom value numeral) (count + numeral.length) false))) := by
  induction numeral generalizing value count with
  | nil => rfl
  | cons b rest ih =>
      obtain ⟨weight, hex⟩ := Option.isSome_iff_exists.1 (digit b List.mem_cons_self)
      obtain ⟨noReturn, noExtension⟩ := Bytes.hex_facts hex
      simp only [Bytes.hexFrom, hex, Option.getD_some] at word ⊢
      have room : ¬ Bytes.wordBound / 16 ≤ value := by
        have grows := Bytes.le_hexFrom (value * 16 + weight) rest
        have bound : Bytes.wordBound = 18446744073709551616 := rfl
        omega
      have stepped : (Chunk.Place.size value count false).step b =
          .next (.size (value * 16 + weight) (count + 1) false) := by
        simp [Chunk.Place.step, noReturn, noExtension, hex, room]
      rw [octets_chunkOctet (by simp) stepped,
        ih _ _ (fun c member => digit c (List.mem_cons_of_mem _ member)) word]
      simp only [List.length_cons]
      have count : count + 1 + rest.length = count + (rest.length + 1) := by omega
      rw [count]

/-- An extension is passed over. -/
theorem octets_extension (value : Nat) {count : Nat} (counted : 0 < count) {extension : Bytes}
    (front : ∀ b, extension.head? = some b → b = 59 ∨ b = Bytes.space ∨ b = Bytes.tab)
    (line : ∀ b ∈ extension, b ≠ Bytes.cr) :
    ∃ begun, (Parser.chunked (.size value count false)).octets extension =
      ([], .ok (.chunked (.size value count begun))) := by
  have inside : ∀ rest : Bytes, (∀ b ∈ rest, b ≠ Bytes.cr) →
      (Parser.chunked (.size value count true)).octets rest =
        ([], .ok (.chunked (.size value count true))) := by
    intro rest
    induction rest with
    | nil => intro _; rfl
    | cons b more ih =>
        intro noReturn
        have stepped : (Chunk.Place.size value count true).step b =
            .next (.size value count true) := by
          simp [Chunk.Place.step, noReturn b List.mem_cons_self]
        rw [octets_chunkOctet (by simp) stepped]
        exact ih fun c member => noReturn c (List.mem_cons_of_mem _ member)
  cases extension with
  | nil => exact ⟨false, rfl⟩
  | cons b rest =>
      have noReturn : (b == Bytes.cr) = false := by
        rw [beq_eq_false_iff_ne]
        exact line b List.mem_cons_self
      have begins : (b == 59 || b == Bytes.space || b == Bytes.tab) = true := by
        simp only [Bool.or_eq_true, beq_iff_eq, or_assoc]
        exact front b rfl
      have stepped : (Chunk.Place.size value count false).step b =
          .next (.size value count true) := by
        simp [Chunk.Place.step, noReturn, begins, counted]
      refine ⟨true, ?_⟩
      rw [octets_chunkOctet (by simp) stepped]
      exact inside rest fun c member => line c (List.mem_cons_of_mem _ member)

/-- A size line leads to the data that it announces, or to the trailer. -/
theorem octets_sizeLine {line : SizeLine} {n : Nat} (announced : line.Announces n)
    (word : n < Bytes.wordBound) :
    (Parser.chunked Chunk.Place.start).octets line.octets =
      ([], .ok (.chunked (if n = 0 then .trailer 0 else .data n))) := by
  have counted : 0 < 0 + line.numeral.length := by
    have := List.length_pos_iff.2 announced.nonempty
    omega
  have digits := octets_numeral 0 0 announced.digit
    (by rw [announced.value]; exact word)
  rw [announced.value] at digits
  obtain ⟨begun, passed⟩ := octets_extension n counted announced.extension_front
    announced.extension_line
  have ended : (Chunk.Place.size n (0 + line.numeral.length) begun).step Bytes.cr =
      .next (.sizeFeed n) := by
    simp only [Chunk.Place.step, counted, beq_self_eq_true, decide_true, Bool.and_self, if_true]
  have fed : (Chunk.Place.sizeFeed n).step Bytes.lf =
      .next (if n = 0 then .trailer 0 else .data n) := by
    simp only [Chunk.Place.step, beq_self_eq_true, if_true]
    split <;> rfl
  rw [SizeLine.octets, List.append_assoc, Chunk.Place.start, octets_quiet digits,
    octets_quiet passed, octets_chunkOctet (by simp) ended, octets_chunkOctet (by simp) fed,
    octets_nil]

/-- One chunk. -/
theorem octets_chunk {chunk : SizeLine × Bytes} (legal : WrittenBody.ChunkLegal chunk)
    (word : chunk.2.length < Bytes.wordBound) :
    (Parser.chunked Chunk.Place.start).octets (WrittenBody.chunkOctets chunk) =
      (Event.pieces chunk.2, .ok (.chunked Chunk.Place.start)) := by
  obtain ⟨line, data⟩ := chunk
  have size := octets_sizeLine legal.announced word
  cases data with
  | nil => exact absurd rfl legal.nonempty
  | cons b rest =>
      simp only [List.length_cons] at size word
      have taken := octets_chunkData (rest.length + 1) b rest (by omega)
      have ended : Chunk.Place.afterData (rest.length + 1) (rest.length + 1) = .dataReturn := by
        simp [Chunk.Place.afterData]
      rw [ended] at taken
      rw [WrittenBody.chunkOctets, List.append_assoc, octets_quiet size, if_neg (by omega),
        octets_append_ok taken, octets_chunkOctet (by simp) rfl, octets_chunkOctet (by simp) rfl,
        octets_nil, List.append_nil]

theorem pieces_append (first second : Bytes) :
    Event.pieces (first ++ second) = Event.pieces first ++ Event.pieces second := by
  simp [Event.pieces]

/-- Chunks in a row. -/
theorem octets_chunks {chunks : List (SizeLine × Bytes)}
    (legal : ∀ chunk ∈ chunks, WrittenBody.ChunkLegal chunk)
    (word : ∀ chunk ∈ chunks, chunk.2.length < Bytes.wordBound) :
    (Parser.chunked Chunk.Place.start).octets (chunks.flatMap WrittenBody.chunkOctets) =
      (Event.pieces (chunks.flatMap (·.2)), .ok (.chunked Chunk.Place.start)) := by
  induction chunks with
  | nil => rfl
  | cons chunk rest ih =>
      simp only [List.flatMap_cons]
      have first := octets_chunk (legal chunk List.mem_cons_self) (word chunk List.mem_cons_self)
      rw [octets_append_ok first,
        ih (fun c member => legal c (List.mem_cons_of_mem _ member))
          (fun c member => word c (List.mem_cons_of_mem _ member)), pieces_append]

/-! ## Trailers -/

/-- One trailer line. -/
theorem octets_trailerLine {line : Bytes} (legal : WrittenBody.TrailerLegal line) :
    (Parser.chunked (.trailer 0)).octets (WrittenBody.trailerOctets line) =
      ([], .ok (.chunked (.trailer 0))) := by
  have inside : ∀ (rest : Bytes) (length : Nat), (∀ b ∈ rest, b ≠ Bytes.cr) →
      length + rest.length ≤ Chunk.maxTrailerLine →
      (Parser.chunked (.trailer length)).octets rest =
        ([], .ok (.chunked (.trailer (length + rest.length)))) := by
    intro rest
    induction rest with
    | nil => intro length _ _; rfl
    | cons b more ih =>
        intro length noReturn fits
        simp only [List.length_cons] at fits
        have room : ¬ Chunk.maxTrailerLine ≤ length := by omega
        have stepped : (Chunk.Place.trailer length).step b = .next (.trailer (length + 1)) := by
          simp [Chunk.Place.step, noReturn b List.mem_cons_self, room]
        rw [octets_chunkOctet (by simp) stepped,
          ih (length + 1) (fun c member => noReturn c (List.mem_cons_of_mem _ member)) (by omega)]
        simp only [List.length_cons]
        have count : length + 1 + more.length = length + (more.length + 1) := by omega
        rw [count]
  have taken := inside line 0 legal.inLine (by have := legal.size; omega)
  have long : 0 + line.length ≠ 0 := by
    have := List.length_pos_iff.2 legal.nonempty
    omega
  have fed : (Chunk.Place.trailerFeed (0 + line.length)).step Bytes.lf = .next (.trailer 0) := by
    simp only [Chunk.Place.step, beq_self_eq_true, if_true, long, if_false]
  rw [WrittenBody.trailerOctets, octets_quiet taken, octets_chunkOctet (by simp) rfl,
    octets_chunkOctet (by simp) fed, octets_nil]

/-- The trailer, up to the empty line that ends the body. -/
theorem octets_trailer {trailers : List Bytes}
    (legal : ∀ line ∈ trailers, WrittenBody.TrailerLegal line) :
    (Parser.chunked (.trailer 0)).octets
        (trailers.flatMap WrittenBody.trailerOctets ++ [Bytes.cr, Bytes.lf]) =
      ([.complete], .ok .idle) := by
  induction trailers with
  | nil => rfl
  | cons line rest ih =>
      rw [List.flatMap_cons, List.append_assoc,
        octets_quiet (octets_trailerLine (legal line List.mem_cons_self))]
      exact ih fun l member => legal l (List.mem_cons_of_mem _ member)

/-! ## Whole requests -/

/-- Line ends between messages are passed over. -/
theorem octets_gap {gap : Bytes} (isGap : Pipeline.IsGap gap) :
    Parser.idle.octets gap = ([], .ok .idle) := by
  induction gap with
  | nil => rfl
  | cons b rest ih =>
      have ends : (b == Bytes.cr || b == Bytes.lf) = true := by
        simpa using isGap b List.mem_cons_self
      rw [octets_cons, step, if_pos ends]
      simp only [afterStep, ih fun c member => isGap c (List.mem_cons_of_mem _ member),
        List.nil_append]

end Parser

namespace WrittenRequest

/-- What a reader tells of the request, each octet of its body on its own. -/
def events (request : WrittenRequest) : List Event :=
  .begin :: request.headEvents ++ Event.pieces request.payload.data ++ [.complete]

end WrittenRequest

namespace Parser

/-- **A written request is read up to its end, whatever its body is framed by.** -/
theorem octets_request {limits : Limits} {request : WrittenRequest}
    (legal : request.Legal limits) (word : limits.maxContentLength < Bytes.wordBound) :
    Parser.idle.octets request.octets = (request.events, .ok .idle) := by
  have announced := WrittenRequest.announce_rawHead legal word
  have framed := legal.framed
  have size := legal.body_size
  rw [WrittenRequest.octets, WrittenRequest.events]
  cases payload : request.payload with
  | none =>
      have headed : afterHead request.rawHead =
          (request.headEvents ++ [.complete], .ok (.idle, 0)) := by
        simp [afterHead, announced, WrittenRequest.facts, payload, WrittenBody.framing]
      rw [octets_append_ok (octets_head legal headed)]
      simp [WrittenBody.octets, WrittenBody.data]
  | declared data =>
      -- a length of 0 ends the message with its head
      cases data with
      | nil =>
          have headed : afterHead request.rawHead =
              (request.headEvents ++ [.complete], .ok (.idle, 0)) := by
            simp [afterHead, announced, WrittenRequest.facts, payload, WrittenBody.framing]
          rw [octets_append_ok (octets_head legal headed)]
          simp [WrittenBody.octets, WrittenBody.data]
      | cons b rest =>
          have headed : afterHead request.rawHead =
              (request.headEvents, .ok (.body (rest.length + 1), 0)) := by
            simp [afterHead, announced, WrittenRequest.facts, payload, WrittenBody.framing]
          rw [octets_append_ok (octets_head legal headed), WrittenBody.octets,
            octets_body _ _ _ (by omega), if_pos (Nat.le_refl _)]
          simp [WrittenBody.data]
  | chunked chunks last trailers =>
      rw [payload] at framed size
      obtain ⟨-, -, chunksLegal, ended, trailersLegal⟩ := framed
      have headed : afterHead request.rawHead =
          (request.headEvents, .ok (.chunked Chunk.Place.start, 0)) := by
        simp [afterHead, announced, WrittenRequest.facts, payload, WrittenBody.framing]
      have fits : ∀ chunk ∈ chunks, chunk.2.length < Bytes.wordBound := fun chunk member => by
        have inside := List.sublist_flatten_of_mem (List.mem_map_of_mem (f := (·.2)) member)
        rw [← List.flatMap_def] at inside
        exact Nat.lt_of_le_of_lt inside.length_le (Nat.lt_of_le_of_lt size word)
      have data := octets_chunks chunksLegal fits
      have final := octets_sizeLine ended (by decide)
      rw [if_pos rfl] at final
      rw [octets_append_ok (octets_head legal headed), WrittenBody.octets, List.append_assoc,
        List.append_assoc, octets_append_ok data, octets_quiet final,
        octets_trailer trailersLegal]
      simp [WrittenBody.data]

/-- **Requests in a row are read one after the other.** -/
theorem octets_pipeline {limits : Limits} (word : limits.maxContentLength < Bytes.wordBound)
    {pipeline : Pipeline}
    (legal : ∀ sent ∈ pipeline, Pipeline.IsGap sent.1 ∧ sent.2.Legal limits)
    {gap : Bytes} (isGap : Pipeline.IsGap gap) :
    Parser.idle.octets (Pipeline.octets pipeline ++ gap) =
      (pipeline.flatMap fun sent => sent.2.events, .ok .idle) := by
  induction pipeline with
  | nil => exact octets_gap isGap
  | cons sent rest ih =>
      obtain ⟨front, written⟩ := legal sent List.mem_cons_self
      have further := ih fun s member => legal s (List.mem_cons_of_mem _ member)
      have spelled : Pipeline.octets (sent :: rest) ++ gap =
          sent.1 ++ (sent.2.octets ++ (Pipeline.octets rest ++ gap)) := by
        simp [Pipeline.octets]
      rw [spelled, octets_quiet (octets_gap front),
        octets_append_ok (octets_request written word), further, List.flatMap_cons]

end Parser

end EmbeddedHttp
