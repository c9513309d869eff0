/-
# EmbeddedHttp.Proofs.Response.ChunkedReading -- what is written in chunks is read back

Data that is queued in chunks leaves an outbox in writes of any sizes, and arrives at a
parser in pieces of any other sizes.  A parser that was told of a body in chunks reads the
data back, and the end of the message with the last octet and no sooner
(`chunked_read_back`).  Empty data is queued as nothing, for a chunk without data would be
that end.
-/
import EmbeddedHttp.Proofs.Request.Pipelines
import EmbeddedHttp.Proofs.Response.Framed

namespace EmbeddedHttp

set_option autoImplicit false

/-! ## Hexadecimal numerals -/

namespace Bytes

theorem hexFrom_append (value : Nat) (first second : Bytes) :
    hexFrom value (first ++ second) = hexFrom (hexFrom value first) second := by
  induction first generalizing value with
  | nil => rfl
  | cons b rest ih => exact ih _

theorem hexValue?_digitChar : ∀ digit < 16,
    hexValue? digit.digitChar.toNat.toUInt8 = some digit := by
  decide

theorem ofNatHex_eq (n : Nat) :
    ofNatHex n =
      if n < 16 then [n.digitChar.toNat.toUInt8]
      else ofNatHex (n / 16) ++ [(n % 16).digitChar.toNat.toUInt8] := by
  rw [ofNatHex, Nat.toDigits_eq_if (by decide)]
  split
  · rfl
  · simp [ofNatHex]

/-- A numeral denotes the number that it was written for. -/
theorem hexFrom_ofNatHex (n : Nat) : hexFrom 0 (ofNatHex n) = n := by
  induction n using Nat.strongRecOn with
  | ind n ih =>
      rw [ofNatHex_eq]
      split
      · rename_i small
        simp [hexFrom, hexValue?_digitChar n small]
      · have last := hexValue?_digitChar (n % 16) (by omega)
        rw [hexFrom_append, ih (n / 16) (by omega)]
        simp only [hexFrom, last, Option.getD_some]
        omega

theorem isHex_ofNatHex (n : Nat) : ∀ b ∈ ofNatHex n, (hexValue? b).isSome = true := by
  induction n using Nat.strongRecOn with
  | ind n ih =>
      intro b member
      rw [ofNatHex_eq] at member
      split at member
      · rename_i small
        rw [List.mem_singleton.1 member, hexValue?_digitChar n small]
        rfl
      · rcases List.mem_append.1 member with front | last
        · exact ih (n / 16) (by omega) b front
        · rw [List.mem_singleton.1 last, hexValue?_digitChar (n % 16) (by omega)]
          rfl

theorem ofNatHex_ne_nil (n : Nat) : ofNatHex n ≠ [] := by
  simp [ofNatHex]

end Bytes

/-! ## Writing -/

namespace Outbox

/-- Data queued in chunks, and the last chunk behind it. -/
def inChunks (strings : List Bytes) : Outbox :=
  (strings.foldl pushChunk empty).push lastChunk

/-- The writes that an outbox is drained with: each takes some of what it is offered. -/
inductive Drains : Outbox → List Bytes → Prop where
  | done {outbox : Outbox} (drained : outbox.isDrained = true) : Drains outbox []
  | write {outbox : Outbox} {writes : List Bytes} (n : Nat)
      (offered : n ≤ outbox.slices.flatten.length) (rest : Drains (outbox.advance n) writes) :
      Drains outbox (outbox.slices.flatten.take n :: writes)

/-- However an outbox is drained, what was queued goes out. -/
theorem Drains.flatten {outbox : Outbox} {writes : List Bytes} (drains : outbox.Drains writes) :
    writes.flatten = outbox.pending.flatten := by
  induction drains with
  | done drained => exact ((isDrained_iff _).1 drained).symm
  | write n offered rest ih =>
      rw [List.flatten_cons, ih]
      exact (advance_taken offered).1

theorem foldl_pushChunk_flatten (strings : List Bytes) (outbox : Outbox) :
    (strings.foldl pushChunk outbox).pending.flatten =
      outbox.pending.flatten ++ (strings.filter (!·.isEmpty)).flatMap chunk := by
  induction strings generalizing outbox with
  | nil => simp
  | cons data rest ih =>
      rw [List.foldl_cons, ih, pushChunk_flatten]
      by_cases empty : data.isEmpty = true
      · simp [empty]
      · simp [empty]

theorem inChunks_flatten (strings : List Bytes) :
    (inChunks strings).pending.flatten =
      (strings.filter (!·.isEmpty)).flatMap chunk ++ lastChunk := by
  rw [inChunks, push_flatten, foldl_pushChunk_flatten]
  rfl

end Outbox

/-! ## A head that announces chunks -/

namespace Head

theorem announceFields_noHead (notes : Notes) (fields : List (Bytes × Bytes)) (facts : HeadFacts) :
    .head facts ∉ (announceFields notes fields).1 := by
  induction fields generalizing notes with
  | nil => simp [announceFields]
  | cons field rest ih =>
      rw [announceFields]
      split
      · simp
      · simpa using ih _

theorem Raw.announce_head {raw : Raw} {facts : HeadFacts} (told : .head facts ∈ raw.announce.1) :
    raw.announce.2 = .ok facts := by
  have fields := announceFields_noHead Notes.none raw.fields facts
  rw [announce] at told ⊢
  split at told <;> simp_all

end Head

namespace Parser

theorem afterHead_chunked {raw : Head.Raw} {next : Parser} {events : List Event} {taken : Nat}
    {facts : HeadFacts} (headed : afterHead raw = (events, .ok (next, taken)))
    (told : .head facts ∈ events) (chunked : facts.framing = .chunked)
    (plain : facts.upgrade = false) : next = .chunked Chunk.Place.start := by
  have announced : .head facts ∈ raw.announce.1 := by
    rw [afterHead] at headed
    repeat' split at headed
    all_goals
      obtain ⟨rfl, -⟩ := Prod.mk.inj headed
      simpa using told
  rw [afterHead, Head.Raw.announce_head announced] at headed
  simp only [plain, chunked, Bool.false_eq_true, if_false, Prod.mk.injEq, Except.ok.injEq]
    at headed
  exact headed.2.1.symm

theorem headStep_chunked {scan : Head.Scan} {size : Nat} {b : UInt8} {next : Parser}
    {events : List Event} {taken : Nat} {facts : HeadFacts}
    (headed : headStep scan size b = (events, .ok (next, taken)))
    (told : .head facts ∈ events) (chunked : facts.framing = .chunked)
    (plain : facts.upgrade = false) : next = .chunked Chunk.Place.start := by
  rw [headStep] at headed
  split at headed
  · split at headed
    · cases headed
    · cases headed
      cases told
  · exact afterHead_chunked headed told chunked plain
  · cases headed
  · cases headed

/-- A step that tells of a head with a body in chunks leads to the first chunk. -/
theorem step_chunked {parser next : Parser} {b : UInt8} {rest : Bytes} {events : List Event}
    {taken : Nat} {facts : HeadFacts}
    (headed : parser.step b rest = (events, .ok (next, taken))) (told : .head facts ∈ events)
    (chunked : facts.framing = .chunked) (plain : facts.upgrade = false) :
    next = .chunked Chunk.Place.start := by
  cases parser with
  | failed => cases headed
  | upgraded =>
      cases headed
      simp at told
  | head scan size => exact headStep_chunked headed told chunked plain
  | idle =>
      rw [step] at headed
      split at headed
      · cases headed
        cases told
      · obtain ⟨rfl, after⟩ := Prod.mk.inj headed
        exact headStep_chunked (Prod.ext rfl after) (by simpa using told) chunked plain
  | body left =>
      rw [step] at headed
      split at headed
      · cases headed
        simp at told
      · cases headed
        simp at told
  | chunked place =>
      cases place with
      | data left =>
          cases headed
          simp at told
      | _ =>
          rw [step, chunkStep] at headed
          · split at headed <;> cases headed <;> simp at told
          · simp

end Parser

/-! ## Reading -/

namespace Parser

/-- Each string that is not empty, with the line that its chunk begins with. -/
def chunksOf (strings : List Bytes) : List (SizeLine × Bytes) :=
  (strings.filter (!·.isEmpty)).map fun data => (⟨Bytes.ofNatHex data.length, []⟩, data)

theorem chunksOf_legal (strings : List Bytes) :
    ∀ chunk ∈ chunksOf strings, WrittenBody.ChunkLegal chunk := by
  intro chunk member
  obtain ⟨data, kept, rfl⟩ := List.mem_map.1 member
  have some : data ≠ [] := by simpa using (List.mem_filter.1 kept).2
  exact ⟨some, Bytes.ofNatHex_ne_nil _, Bytes.isHex_ofNatHex _, Bytes.hexFrom_ofNatHex _,
    by simp, by simp⟩

/-- The chunks of a body are read as the strings that they were made of. -/
theorem octets_inChunks {strings : List Bytes}
    (word : ∀ data ∈ strings, data.length < Bytes.wordBound) :
    (Parser.chunked Chunk.Place.start).octets
        ((strings.filter (!·.isEmpty)).flatMap Outbox.chunk) =
      (Event.pieces strings.flatten, .ok (.chunked Chunk.Place.start)) := by
  have written : (chunksOf strings).flatMap WrittenBody.chunkOctets =
      (strings.filter (!·.isEmpty)).flatMap Outbox.chunk := by
    rw [chunksOf, List.flatMap_map]
    congr 1
    funext data
    simp [WrittenBody.chunkOctets, SizeLine.octets, Outbox.chunk]
    rfl
  have data : (chunksOf strings).flatMap (·.2) = strings.flatten := by
    rw [chunksOf, List.flatMap_map]
    simp [List.flatten_filter_not_isEmpty]
  have read := octets_chunks (chunksOf_legal strings) fun chunk member => by
    obtain ⟨data, kept, rfl⟩ := List.mem_map.1 member
    exact word data (List.mem_filter.1 kept).1
  rwa [written, data] at read

/-- The last chunk is read up to the octet that ends it. -/
theorem octets_lastChunk :
    (Parser.chunked Chunk.Place.start).octets Outbox.lastChunk.dropLast =
      ([], .ok (.chunked (.trailerFeed 0))) := by
  decide

theorem octets_stream {strings : List Bytes}
    (word : ∀ data ∈ strings, data.length < Bytes.wordBound) :
    (Parser.chunked Chunk.Place.start).octets (Outbox.inChunks strings).pending.flatten =
      (Event.pieces strings.flatten ++ [.complete], .ok .idle) := by
  have last : (Parser.chunked Chunk.Place.start).octets Outbox.lastChunk =
      ([.complete], .ok .idle) := by decide
  rw [Outbox.inChunks_flatten, octets_append_ok (octets_inChunks word), last]

/-- What a part of a stream tells comes first. -/
theorem octets_front (parser : Parser) (first second : Bytes) :
    (parser.octets first).1 <+: (parser.octets (first ++ second)).1 := by
  rw [octets_append]
  obtain ⟨events, result⟩ := parser.octets first
  cases result with
  | error fault => exact List.prefix_refl _
  | ok next => exact List.prefix_append _ _

/-- No part of the stream that lacks its last octet tells of its end. -/
theorem octets_part {strings : List Bytes}
    (word : ∀ data ∈ strings, data.length < Bytes.wordBound) {part : Bytes}
    (within : part <+: (Outbox.inChunks strings).pending.flatten)
    (short : part ≠ (Outbox.inChunks strings).pending.flatten) :
    .complete ∉ ((Parser.chunked Chunk.Place.start).octets part).1 := by
  have ends : Outbox.lastChunk = Outbox.lastChunk.dropLast ++ [Bytes.lf] := by decide
  rw [Outbox.inChunks_flatten, ends, ← List.append_assoc] at within short
  obtain ⟨more, whole⟩ := (List.prefix_concat_iff.1 within).resolve_left short
  -- all but the last octet tells of the data only
  have front : ((Parser.chunked Chunk.Place.start).octets (part ++ more)).1 =
      Event.pieces strings.flatten := by
    rw [whole, octets_append_ok (octets_inChunks word), octets_lastChunk, List.append_nil]
  intro told
  have among := (octets_front (.chunked Chunk.Place.start) part more).subset told
  rw [front] at among
  simp [Event.pieces] at among

/-- What a listener that accepts everything hears of some pieces, and what the parser comes
to. -/
theorem executeAll_keeping {σ : Type} {listener : Listener σ}
    (accepts : ∀ event state, (listener event state).1 = none) (parser : Parser) (state : σ)
    (pieces : List Bytes) :
    (executeAll (keeping listener) pieces 0 parser (state, [])).listener.2.reverse =
        (runAll pieces parser).1 ∧
      ∀ next, (runAll pieces parser).2 = .ok next →
        (executeAll (keeping listener) pieces 0 parser (state, [])).parser = next ∧
          (executeAll (keeping listener) pieces 0 parser (state, [])).result =
            .ok pieces.flatten.length := by
  obtain ⟨heard, told⟩ := deliver_keeping accepts (runAll pieces parser).1 state []
  rw [executeAll_eq, tell, told]
  cases (runAll pieces parser).2 with
  | error fault => simp
  | ok next => simp

theorem mem_split {events : List Event} {event : Event} (noBody : event.isBody = false)
    (member : event ∈ events) : event ∈ Event.split events :=
  List.mem_flatMap.2 ⟨event, member, by simp [Event.octets_of_noBody noBody]⟩

/-- **What is queued in chunks is read back**, however it is written and however it arrives:
a parser that was just told of a body in chunks hears the data, and once, with the last octet,
that the message is complete. -/
theorem chunked_read_back {σ : Type} {listener : Listener σ}
    (accepts : ∀ event state, (listener event state).1 = none) (state : σ)
    {before parser : Parser} {b : UInt8} {rest : Bytes} {events : List Event} {taken : Nat}
    {facts : HeadFacts} (headed : before.step b rest = (events, .ok (parser, taken)))
    (told : .head facts ∈ events) (chunked : facts.framing = .chunked)
    (plain : facts.upgrade = false) {strings writes pieces : List Bytes}
    (word : ∀ data ∈ strings, data.length < Bytes.wordBound)
    (drains : (Outbox.inChunks strings).Drains writes)
    (arrives : pieces.flatten = writes.flatten) :
    let fed := fun pieces => executeAll (keeping listener) pieces 0 parser (state, [])
    (fed pieces).parser = .idle ∧ (fed pieces).result = .ok pieces.flatten.length ∧
      (∃ fragments : List Bytes, (fed pieces).listener.2.reverse =
        fragments.map .body ++ [.complete] ∧ fragments.flatten = strings.flatten) ∧
      ∀ part : List Bytes, part.flatten <+: writes.flatten → part.flatten ≠ writes.flatten →
        .complete ∉ (fed part).listener.2 := by
  obtain rfl := step_chunked headed told chunked plain
  rw [drains.flatten] at arrives ⊢
  have read := octets_flatten pieces (Parser.chunked Chunk.Place.start)
  rw [arrives, octets_stream word] at read
  obtain ⟨split, ended⟩ := Prod.mk.inj read
  obtain ⟨heard, came⟩ := executeAll_keeping accepts (.chunked Chunk.Place.start) state pieces
  obtain ⟨idle, counted⟩ := came .idle ended.symm
  refine ⟨idle, counted, ?_, fun part within short => ?_⟩
  · have proper := runAll_proper pieces (.chunked Chunk.Place.start)
    obtain ⟨fragments, others, same, whole, -, none⟩ :=
      Event.split_eq_pieces proper rfl split.symm
    have nothing : others = [] := Event.eq_nil_of_split
      (fun e member => proper e (by rw [same]; simp [member])) none
    exact ⟨fragments, by rw [heard, same, nothing], whole⟩
  · intro ended
    obtain ⟨heard, -⟩ := executeAll_keeping accepts (.chunked Chunk.Place.start) state part
    have among := List.mem_reverse.2 ended
    rw [heard] at among
    refine octets_part word within short ?_
    rw [octets_flatten]
    exact mem_split rfl among

/-- Three strings, one of them empty, written in two writes and cut after every fourth octet. -/
theorem greeting_read_back :
    let strings := [Bytes.ofAscii "hello", [], Bytes.ofAscii ", dear reader"]
    let stream := (Outbox.inChunks strings).pending.flatten
    let scan : Head.Scan := ⟨.headFeed, Bytes.ofAscii "PUT", Bytes.ofAscii "/", .http11,
      [(Bytes.ofAscii "Transfer-Encoding", Bytes.ofAscii "chunked")], [], []⟩
    let listener : Listener Unit := fun _ state => (none, state)
    let fed := executeAll (keeping listener) (Bytes.cutEvery 4 stream) 0
      (.chunked Chunk.Place.start) ((), [])
    (Outbox.inChunks strings).Drains [stream.take 3, stream.drop 3] ∧
      ((Parser.head scan 45).step Bytes.lf []).2 = .ok (.chunked Chunk.Place.start, 0) ∧
      fed.parser = .idle ∧
      ∃ fragments : List Bytes, fed.listener.2.reverse = fragments.map .body ++ [.complete] ∧
        fragments.flatten = strings.flatten := by
  intro strings stream scan listener fed
  have drains : (Outbox.inChunks strings).Drains [stream.take 3, stream.drop 3] :=
    .write 3 (by decide) (.write 30 (by decide) (.done (by decide)))
  let facts : HeadFacts := ⟨Bytes.ofAscii "PUT", .http11, .chunked, false⟩
  have headed : (Parser.head scan 45).step Bytes.lf [] =
      ([.target (Bytes.ofAscii "/"), .fieldName (Bytes.ofAscii "Transfer-Encoding"),
        .fieldValue (Bytes.ofAscii "chunked"), .head facts],
        .ok (.chunked Chunk.Place.start, 0)) := by decide
  have accepts : ∀ event state, (listener event state).1 = none := fun _ _ => rfl
  have read := chunked_read_back accepts () headed
    (by simp : Event.head facts ∈ _) rfl rfl (by decide) drains
    (by decide : (Bytes.cutEvery 4 stream).flatten = _)
  exact ⟨drains, by rw [headed], read.1, read.2.2.1⟩

end Parser

end EmbeddedHttp
