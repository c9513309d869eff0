/-
# EmbeddedHttp.Proofs.Message.ChunkedBodies -- chunked bodies are accepted by their grammar

Reading a body in chunks is deciding its grammar, over all octets and however they
arrive.  Words are read up to their end (`octets_word`).  Any octets at all either hold a
word at their front, or stand at a place behind which a word may still come, or met a
fault (`readings`); the induction appends one octet at the end, and what was taken at each
place carries it.  A word has no other word at its front (`word_unique`), so the reader's
choice of an end is the only one, and it stops at the first octet behind which there is no
word left (`chunked_exact`).
-/
import EmbeddedHttp.Proofs.Message.ChunkGrammar
import EmbeddedHttp.Proofs.Request.Pipelines
import Mathlib.Data.List.Induction

namespace EmbeddedHttp.Parser

set_option autoImplicit false

open Chunk

/-! ## Words are read -/

theorem octets_row {front data : Bytes} (row : Row front data) :
    (Parser.chunked Place.start).octets front =
      (Event.pieces data, .ok (.chunked Place.start)) := by
  obtain ⟨chunks, all, rfl, rfl⟩ := row
  exact octets_chunks (fun chunk member => (all chunk member).1)
    fun chunk member => (all chunk member).2

theorem octets_trailerLines {trailers : List Bytes}
    (legal : ∀ line ∈ trailers, WrittenBody.TrailerLegal line) :
    (Parser.chunked (.trailer 0)).octets (trailers.flatMap WrittenBody.trailerOctets) =
      ([], .ok (.chunked (.trailer 0))) := by
  induction trailers with
  | nil => rfl
  | cons line rest ih =>
      rw [List.flatMap_cons, octets_quiet (octets_trailerLine (legal line List.mem_cons_self))]
      exact ih fun other member => legal other (List.mem_cons_of_mem _ member)

theorem octets_ended {front data : Bytes} (ended : Ended front data) :
    (Parser.chunked Place.start).octets front =
      (Event.pieces data, .ok (.chunked (.trailer 0))) := by
  obtain ⟨row, last, trailers, chunks, announced, legal, rfl⟩ := ended
  have final := octets_sizeLine announced (by decide)
  rw [if_pos rfl] at final
  rw [List.append_assoc, octets_append_ok (octets_row chunks), octets_quiet final,
    octets_trailerLines legal, List.append_nil]

/-- **A word is read up to its end**, and all of it but the last octet tells of its data
only. -/
theorem octets_word {word data : Bytes} (is : Word word data) :
    (Parser.chunked Place.start).octets word = (Event.pieces data ++ [.complete], .ok .idle) ∧
      ∃ front, word = front ++ [Bytes.lf] ∧
        ((Parser.chunked Place.start).octets front).1 = Event.pieces data := by
  obtain ⟨front, ended, rfl⟩ := is
  have read := octets_ended ended
  constructor
  · rw [octets_append_ok read]
    rfl
  · refine ⟨front ++ [Bytes.cr], by simp, ?_⟩
    rw [octets_append_ok read, octets_chunkOctet (by simp) rfl, octets_nil, List.append_nil]

theorem complete_notMem_pieces (data : Bytes) : .complete ∉ Event.pieces data := by
  simp [Event.pieces]

theorem pieces_injective {first second : Bytes} (same : Event.pieces first = Event.pieces second) :
    first = second := by
  refine List.map_injective_iff.2 ?_ same
  intro a b one
  simpa using one

/-- **No word begins with another.** -/
theorem word_unique {first second one other : Bytes} (isFirst : Word first one)
    (isSecond : Word second other) (within : first <+: second) :
    first = second ∧ one = other := by
  obtain ⟨readFirst, -⟩ := octets_word isFirst
  obtain ⟨readSecond, front, ends, quiet⟩ := octets_word isSecond
  have same : first = second := by
    by_contra apart
    rw [ends] at within apart
    -- the first word would end before the last octet of the second one
    obtain ⟨more, whole⟩ := (List.prefix_concat_iff.1 within).resolve_left apart
    have among := (octets_front (.chunked Place.start) first more).subset
      (by rw [readFirst]; simp : Event.complete ∈ _)
    rw [whole, quiet] at among
    exact complete_notMem_pieces other among
  subst same
  rw [readFirst] at readSecond
  obtain ⟨told, -⟩ := Prod.mk.inj readSecond
  exact ⟨rfl, pieces_injective (List.append_cancel_right told)⟩

/-! ## Everything else that may arrive -/

/-- What came of reading some octets of a body in chunks. -/
inductive ChunkReading (stream : Bytes) : Prop where
  /-- The body goes on. -/
  | within {place : Place} {data : Bytes} (behind : Behind place stream data)
      (read : (Parser.chunked Place.start).octets stream =
        (Event.pieces data, .ok (.chunked place)))
  /-- The body ended somewhere. -/
  | whole {word data : Bytes} (later : Bytes) (is : Word word data) (same : stream = word ++ later)
  /-- A fault came first. -/
  | stopped (data : Bytes) (fault : ParseError)
      (read : (Parser.chunked Place.start).octets stream = (Event.pieces data, .error fault))

/-- One more octet while the body goes on. -/
theorem ChunkReading.concat_within {stream data : Bytes} {place : Place}
    (behind : Behind place stream data)
    (read : (Parser.chunked Place.start).octets stream =
      (Event.pieces data, .ok (.chunked place))) (b : UInt8) : ChunkReading (stream ++ [b]) := by
  by_cases inData : ∃ left, place = .data left
  · obtain ⟨left, rfl⟩ := inData
    refine .within (behind.datum b) ?_
    rw [octets_append_ok read, octets_chunkData left b [] (Nat.zero_le _), pieces_append]
    rfl
  · have outside : ∀ left, place ≠ .data left := fun left same => inData ⟨left, same⟩
    have alone : (Parser.chunked place).step b [] = chunkStep place b := by
      cases place with
      | data left => exact absurd rfl (outside left)
      | _ => rfl
    cases moved : place.step b with
    | next later =>
        refine .within (behind.next outside moved) ?_
        rw [octets_append_ok read, octets_chunkOctet outside moved, octets_nil, List.append_nil]
    | finished => exact .whole [] (behind.finished moved) (List.append_nil _).symm
    | malformed cause =>
        refine .stopped data (.invalid cause) ?_
        rw [octets_append_ok read, octets_cons, alone, chunkStep, moved]
        simp [afterStep]
    | tooLong =>
        refine .stopped data (.refused (.status .badRequest)) ?_
        rw [octets_append_ok read, octets_cons, alone, chunkStep, moved]
        simp [afterStep]

/-- **Whatever octets arrive**, the body goes on, or it ended, or a fault came first. -/
theorem readings (stream : Bytes) : ChunkReading stream := by
  induction stream using List.reverseRecOn with
  | nil => exact .within (Behind.start Row.nil) rfl
  | append_singleton front b ih =>
      cases ih with
      | within behind read => exact .concat_within behind read b
      | whole later is same =>
          exact .whole (later ++ [b]) is (by rw [same, List.append_assoc])
      | stopped data fault read =>
          refine .stopped data fault ?_
          rw [octets_append, read]
          rfl

/-- Some octets hold a word at their front exactly when they tell of the end. -/
theorem complete_mem_iff (stream : Bytes) :
    .complete ∈ ((Parser.chunked Place.start).octets stream).1 ↔
      ∃ word data, word <+: stream ∧ Word word data := by
  constructor
  · intro told
    cases readings stream with
    | within behind read =>
        rw [read] at told
        exact absurd told (complete_notMem_pieces _)
    | whole later is same => exact ⟨_, _, ⟨later, same.symm⟩, is⟩
    | stopped data fault read =>
        rw [read] at told
        exact absurd told (complete_notMem_pieces _)
  · rintro ⟨word, data, ⟨later, rfl⟩, is⟩
    apply (octets_front _ word later).subset
    rw [(octets_word is).1]
    simp

/-- What can become a word is read without a fault. -/
theorem octets_ok_of_extends {stream more data : Bytes} (is : Word (stream ++ more) data) :
    ∃ next, ((Parser.chunked Place.start).octets stream).2 = .ok next := by
  have read := (octets_word is).1
  rw [octets_append] at read
  revert read
  obtain ⟨events, result⟩ := (Parser.chunked Place.start).octets stream
  cases result with
  | error fault =>
      intro read
      cases read
  | ok next => exact fun _ => ⟨next, rfl⟩

/-- Octets without a word at their front are refused exactly when no word begins with
them. -/
theorem fault_iff {stream : Bytes} (open_ended : ¬ ∃ word data, word <+: stream ∧ Word word data) :
    (∃ fault, ((Parser.chunked Place.start).octets stream).2 = .error fault) ↔
      ¬ ∃ more data, Word (stream ++ more) data := by
  constructor
  · rintro ⟨fault, stopped⟩ ⟨more, data, is⟩
    obtain ⟨next, read⟩ := octets_ok_of_extends is
    rw [read] at stopped
    cases stopped
  · intro hopeless
    cases readings stream with
    | within behind read => exact absurd behind.completes hopeless
    | whole later is same => exact absurd ⟨_, _, ⟨later, same.symm⟩, is⟩ open_ended
    | stopped data fault read => exact ⟨fault, by rw [read]⟩

/-! ## Listening -/

theorem executeAll_keeping_fault {σ : Type} {listener : Listener σ}
    (accepts : ∀ event state, (listener event state).1 = none) (parser : Parser) (state : σ)
    (pieces : List Bytes) (fault : ParseError) :
    (executeAll (keeping listener) pieces 0 parser (state, [])).result = .error fault ↔
      (runAll pieces parser).2 = .error fault := by
  obtain ⟨heard, told⟩ := deliver_keeping accepts (runAll pieces parser).1 state []
  rw [executeAll_eq, tell, told]
  cases (runAll pieces parser).2 <;> simp

/-- **A body in chunks is accepted exactly by its grammar**, whatever arrives and however it
is cut.  Behind a head with such a body, a listener that accepts everything hears the data
of the word that the stream begins with, then that the message is complete, and then what
the octets behind the word say.  It hears of an end only if there is a word, there is at
most one, and while there is none reading stops exactly when no word can come any more. -/
theorem chunked_exact {σ : Type} {listener : Listener σ}
    (accepts : ∀ event state, (listener event state).1 = none) (state : σ)
    {before parser : Parser} {b : UInt8} {rest : Bytes} {events : List Event} {taken : Nat}
    {facts : HeadFacts} (headed : before.step b rest = (events, .ok (parser, taken)))
    (told : .head facts ∈ events) (chunked : facts.framing = .chunked)
    (plain : facts.upgrade = false) (pieces : List Bytes) :
    let fed := executeAll (keeping listener) pieces 0 parser (state, [])
    (∀ word later data, pieces.flatten = word ++ later → Word word data →
        ∃ (fragments : List Bytes) (others : List Event),
          fed.listener.2.reverse = fragments.map .body ++ .complete :: others ∧
            fragments.flatten = data ∧ Event.split others = (Parser.idle.octets later).1) ∧
      (.complete ∈ fed.listener.2 ↔ ∃ word data, word <+: pieces.flatten ∧ Word word data) ∧
      (∀ first second one other, first <+: pieces.flatten → second <+: pieces.flatten →
        Word first one → Word second other → first = second ∧ one = other) ∧
      ((¬ ∃ word data, word <+: pieces.flatten ∧ Word word data) →
        ((∃ fault, fed.result = .error fault) ↔
          ¬ ∃ more data, Word (pieces.flatten ++ more) data)) := by
  obtain rfl := step_chunked headed told chunked plain
  obtain ⟨heard, -⟩ := executeAll_keeping accepts (.chunked Place.start) state pieces
  have read := octets_flatten pieces (Parser.chunked Place.start)
  have proper := runAll_proper pieces (.chunked Place.start)
  refine ⟨?_, ?_, ?_, ?_⟩
  · intro word later data same is
    rw [same, octets_append_ok (octets_word is).1] at read
    obtain ⟨split, -⟩ := Prod.mk.inj read
    rw [List.append_assoc, List.singleton_append] at split
    obtain ⟨fragments, others, cut, whole, -, further⟩ :=
      Event.split_eq_pieces proper rfl split.symm
    exact ⟨fragments, others, heard.trans cut, whole, further⟩
  · rw [← complete_mem_iff, read, ← List.mem_reverse, heard]
    constructor
    · intro member
      exact mem_split rfl member
    · intro member
      obtain ⟨event, among, inside⟩ := List.mem_flatMap.1 member
      cases event with
      | body data => exact absurd inside (complete_notMem_pieces data)
      | _ =>
          rw [Event.octets_of_noBody rfl, List.mem_singleton] at inside
          rw [inside]
          exact among
  · intro first second one other inFirst inSecond isFirst isSecond
    rcases List.prefix_or_prefix_of_prefix inFirst inSecond with shorter | longer
    · exact word_unique isFirst isSecond shorter
    · obtain ⟨same, data⟩ := word_unique isSecond isFirst longer
      exact ⟨same.symm, data.symm⟩
  · intro open_ended
    rw [← fault_iff open_ended, read]
    exact exists_congr (executeAll_keeping_fault accepts _ state pieces)

/-- One chunk with an extension, a trailer line and the beginning of another message, cut
after every fourth octet. -/
theorem greeting_exact :
    let word := Bytes.ofAscii "5;x\r\nhello\r\n0\r\nT: 1\r\n\r\n"
    let scan : Head.Scan := ⟨.headFeed, Bytes.ofAscii "PUT", Bytes.ofAscii "/", .http11,
      [(Bytes.ofAscii "Transfer-Encoding", Bytes.ofAscii "chunked")], [], []⟩
    let listener : Listener Unit := fun _ state => (none, state)
    let fed := executeAll (keeping listener) (Bytes.cutEvery 4 (word ++ Bytes.ofAscii "GET")) 0
      (.chunked Place.start) ((), [])
    ((Parser.head scan 45).step Bytes.lf []).2 = .ok (.chunked Place.start, 0) ∧
      Word word (Bytes.ofAscii "hello") ∧ .complete ∈ fed.listener.2 ∧
      ∃ (fragments : List Bytes) (others : List Event),
        fed.listener.2.reverse = fragments.map .body ++ .complete :: others ∧
          fragments.flatten = Bytes.ofAscii "hello" ∧ Event.split others = [.begin] := by
  intro word scan listener fed
  let facts : HeadFacts := ⟨Bytes.ofAscii "PUT", .http11, .chunked, false⟩
  have headed : (Parser.head scan 45).step Bytes.lf [] =
      ([.target (Bytes.ofAscii "/"), .fieldName (Bytes.ofAscii "Transfer-Encoding"),
        .fieldValue (Bytes.ofAscii "chunked"), .head facts],
        .ok (.chunked Place.start, 0)) := by decide
  have chunk : WrittenBody.ChunkLegal (⟨Bytes.ofAscii "5", Bytes.ofAscii ";x"⟩,
      Bytes.ofAscii "hello") :=
    ⟨by decide, by decide, by decide +kernel, by decide, by simp [Bytes.ofAscii],
      by decide +kernel⟩
  have trailer : WrittenBody.TrailerLegal (Bytes.ofAscii "T: 1") :=
    ⟨by decide, by decide +kernel, by decide⟩
  have is : Word word (Bytes.ofAscii "hello") :=
    (((Row.nil.concat chunk (by decide)).ended announces_zero).concat trailer).word
  have accepts : ∀ event state, (listener event state).1 = none := fun _ _ => rfl
  obtain ⟨heard, ends, -, -⟩ := chunked_exact accepts () headed (by simp : Event.head facts ∈ _)
    rfl rfl (Bytes.cutEvery 4 (word ++ Bytes.ofAscii "GET"))
  have arrived : (Bytes.cutEvery 4 (word ++ Bytes.ofAscii "GET")).flatten =
      word ++ Bytes.ofAscii "GET" := by decide
  refine ⟨by rw [headed], is, ends.2 ⟨word, _, ?_, is⟩, heard word _ _ arrived is⟩
  rw [arrived]
  exact List.prefix_append _ _

end EmbeddedHttp.Parser
