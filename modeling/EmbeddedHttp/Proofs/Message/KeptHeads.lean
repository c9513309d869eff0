/-
# EmbeddedHttp.Proofs.Message.KeptHeads -- reading heads again is safe

A reader that keeps the octets of an unfinished head stands for the parser that remembers its
place in it (`Rereader.parser`), as long as it is `Sound`: what it keeps is the front of a head
and shorter than a head may be, and something is left of a body that it reads.  A turn of the
loop keeps that, and comes to what comes of the data for the parser (`turn_follows`); in it no
difference of counts is negative, since a head that the kept octets do not complete ends behind
them (`Head.Scan.lt_of_parse`).  So the loop ends on every piece, and a reader in use is safe
(`Reachable.safe`).
-/
import EmbeddedHttp.Proofs.Message.Rereading

namespace EmbeddedHttp

set_option autoImplicit false

namespace Rereader

variable {σ : Type}

/-! ## What a reader stands for -/

/-- The parser that is where the reader is. -/
def parser (reader : Rereader) : Parser :=
  match reader.place with
  | .idle => .idle
  | .head =>
      match Head.Scan.start.feed reader.kept with
      | some scan => .head scan reader.kept.length
      | none => .failed
  | .body left => .body left
  | .chunked place => .chunked place
  | .upgraded => .upgraded
  | .failed => .failed

/-- What holds of a reader in use: it keeps the front of a head that may still go on, and
something is left of a body that is being read. -/
inductive Sound : Rereader → Prop where
  | idle : Sound ⟨.idle, []⟩
  | head {kept : Bytes} {scan : Head.Scan} (fed : Head.Scan.start.feed kept = some scan)
      (room : kept.length < Head.maxSize) : Sound ⟨.head, kept⟩
  | body {left : Nat} (more : 0 < left) : Sound ⟨.body left, []⟩
  | chunked {place : Chunk.Place} (more : ∀ left, place = .data left → 0 < left) :
      Sound ⟨.chunked place, []⟩
  | upgraded : Sound ⟨.upgraded, []⟩
  | failed : Sound ⟨.failed, []⟩

theorem parser_head {kept : Bytes} {scan : Head.Scan}
    (fed : Head.Scan.start.feed kept = some scan) :
    parser ⟨.head, kept⟩ = .head scan kept.length := by
  unfold parser
  simp only [fed]

theorem Sound.room {reader : Rereader} (sound : reader.Sound) :
    reader.kept.length < Head.maxSize := by
  cases sound with
  | head fed room => exact room
  | _ => exact Nat.zero_lt_succ _

theorem Sound.failed_of_parser {reader : Rereader} (sound : reader.Sound)
    (failed : reader.parser = .failed) : reader = ⟨.failed, []⟩ := by
  cases sound with
  | head fed room =>
      rw [parser_head fed] at failed
      cases failed
  | failed => rfl
  | _ => cases failed

/-- Does a turn of the reader take something, whatever comes? -/
def ahead (reader : Rereader) : Nat :=
  match reader.place with
  | .idle => 0
  | _ => 1

theorem ahead_le (reader : Rereader) : reader.ahead ≤ 1 := by
  unfold ahead
  split <;> omega

/-- What is right of a turn that goes on. -/
structure Advances (reader next : Rereader) (data : Bytes) (events : List Event) (taken : Nat) :
    Prop where
  sound : next.Sound
  fits : taken ≤ data.length
  /-- A turn takes something, or begins a message, which the turn before did not. -/
  nearer : 2 * (data.length - taken) + 1 + reader.ahead ≤ 2 * data.length + next.ahead
  reads : reader.parser.run data =
    Parser.Reading.andThen (events, .ok next.parser) (·.run (data.drop taken))

/-- A turn comes to what comes of the data for the parser. -/
def Follows (reader : Rereader) (data : Bytes) (told : List Event × Turn) : Prop :=
  match told.2 with
  | .onward next taken => Advances reader next data told.1 taken
  | .stopped fault => reader.parser.run data = (told.1, .error fault)
  | .underflow => False

/-! ## Turns in a head -/

theorem sound_behindHead (facts : HeadFacts) : Sound ⟨(behindHead facts).2, []⟩ := by
  unfold behindHead
  split
  · exact .upgraded
  · split
    · exact .chunked nofun
    · exact .body (Nat.succ_pos _)
    · exact .idle

/-- Behind a head the parser is where the reader is. -/
theorem afterHead_eq (head : Head.Raw) :
    Parser.afterHead head =
      match head.announce with
      | (events, .error cause) => (events, .error (.invalid cause))
      | (events, .ok facts) =>
          (events ++ (behindHead facts).1, .ok (parser ⟨(behindHead facts).2, []⟩, 0)) := by
  unfold Parser.afterHead behindHead
  rcases head.announce with ⟨events, cause | facts⟩
  · rfl
  · simp only
    by_cases upgrade : facts.upgrade = true
    · rw [if_pos upgrade, if_pos upgrade]
      rfl
    · rw [if_neg upgrade, if_neg upgrade]
      cases facts.framing with
      | none => rfl
      | chunked => simp [parser]
      | length n => cases n <;> simp [parser]

/-- What comes of data in a head for a parser, by what comes of as much of it as the head may
take. -/
def HeadRun (scan : Head.Scan) (size : Nat) (data : Bytes) : Head.Outcome → Prop
  | .unfinished =>
      if Head.maxSize ≤ size + data.length then
        (Parser.head scan size).run data = ([], .error (.refused (.status .badRequest)))
      else ∃ last, scan.feed data = some last ∧
        (Parser.head scan size).run data = ([], .ok (.head last (size + data.length)))
  | .malformed cause => (Parser.head scan size).run data = ([], .error (.invalid cause))
  | .tooManyFields =>
      (Parser.head scan size).run data = ([], .error (.refused (.status .badRequest)))
  | .complete head whole =>
      (Parser.head scan size).run data =
        Parser.afterStep (Parser.afterHead head) fun next _ => next.run (data.drop (whole - size))

/-- An octet that neither ends the head nor spoils it. -/
theorem HeadRun.cons {scan next : Head.Scan} {size : Nat} {b : UInt8} {rest : Bytes}
    {outcome : Head.Outcome} (stepped : scan.step b = .more next)
    (below : size + 1 < Head.maxSize)
    (beyond : ∀ head whole, outcome = .complete head whole → size + 1 < whole)
    (later : HeadRun next (size + 1) rest outcome) : HeadRun scan size (b :: rest) outcome := by
  have same : (Parser.head scan size).run (b :: rest) = (Parser.head next (size + 1)).run rest := by
    rw [Parser.run_cons, Parser.step, Parser.headStep, stepped]
    simp [Nat.not_le.2 below, Parser.afterStep]
  have count : size + 1 + rest.length = size + (b :: rest).length := by
    rw [List.length_cons]
    omega
  cases outcome with
  | unfinished =>
      unfold HeadRun at later ⊢
      rw [same, Head.Scan.feed_cons stepped, ← count]
      exact later
  | complete head whole =>
      have split : whole - size = (whole - (size + 1)) + 1 := by
        have := beyond head whole rfl
        omega
      show (Parser.head scan size).run (b :: rest) =
        Parser.afterStep (Parser.afterHead head) fun next _ =>
          next.run ((b :: rest).drop (whole - size))
      rw [same, split, List.drop_succ_cons]
      exact later
  | malformed cause => exact same.trans later
  | tooManyFields => exact same.trans later

/-- **A parser in a head does what reading the head as a whole comes to.** -/
theorem headRun {scan : Head.Scan} {size : Nat} (room : size < Head.maxSize) (data : Bytes) :
    HeadRun scan size data (scan.parse size (data.take (Head.maxSize - size))) := by
  induction data generalizing scan size with
  | nil =>
      have below : ¬ Head.maxSize ≤ size + ([] : Bytes).length := by
        rw [List.length_nil]
        omega
      unfold HeadRun
      rw [List.take_nil, Head.Scan.parse, if_neg below]
      exact ⟨scan, rfl, Parser.run_nil _⟩
  | cons b rest ih =>
      obtain ⟨more, roomFor⟩ : ∃ more, Head.maxSize - size = more + 1 :=
        ⟨Head.maxSize - size - 1, by omega⟩
      rw [roomFor, List.take_succ_cons, Head.Scan.parse]
      have run : (Parser.head scan size).run (b :: rest) =
          Parser.afterStep (Parser.headStep scan size b) fun next taken =>
            next.run (rest.drop taken) := Parser.run_cons _ _ _
      unfold Parser.headStep at run
      cases stepped : scan.step b with
      | more next =>
          simp only [stepped] at run
          by_cases full : Head.maxSize ≤ size + 1
          · -- the octet is the last one that the head may take
            rw [if_pos full] at run
            obtain rfl : more = 0 := by omega
            have whole : Head.maxSize ≤ size + (b :: rest).length := by
              rw [List.length_cons]
              omega
            show HeadRun scan size (b :: rest) .unfinished
            unfold HeadRun
            rw [if_pos whole]
            exact run
          · have later : HeadRun next (size + 1) rest
                (next.parse (size + 1) (rest.take (Head.maxSize - (size + 1)))) :=
              ih (by omega)
            have left : Head.maxSize - (size + 1) = more := by omega
            rw [left] at later
            exact .cons stepped (by omega)
              (fun head whole complete => (Head.Scan.lt_of_parse complete).1) later
      | complete head =>
          simp only [stepped] at run
          show (Parser.head scan size).run (b :: rest) =
            Parser.afterStep (Parser.afterHead head) fun next _ =>
              next.run ((b :: rest).drop (size + 1 - size))
          rw [Nat.add_sub_cancel_left, List.drop_one, List.tail_cons, run, afterHead_eq]
          rcases head.announce with ⟨events, cause | facts⟩ <;> rfl
      | malformed cause =>
          simp only [stepped] at run
          exact run
      | tooManyFields =>
          simp only [stepped] at run
          exact run

theorem difference?_of_le {whole part : Nat} (le : part ≤ whole) :
    difference? whole part = some (whole - part) := if_pos le

/-- A turn in a head. -/
theorem headTurn_follows {kept data : Bytes} {scan : Head.Scan}
    (fed : Head.Scan.start.feed kept = some scan) (room : kept.length < Head.maxSize)
    (nonempty : data ≠ []) : Follows ⟨.head, kept⟩ data (headTurn kept data) := by
  have some_data : 0 < data.length := List.length_pos_iff.2 nonempty
  have here := parser_head fed
  have run : HeadRun scan kept.length data _ := headRun room data
  unfold headTurn
  rw [difference?_of_le (Nat.le_of_lt room)]
  simp only
  have again : Head.parse (kept ++ data.take (Head.maxSize - kept.length)) =
      scan.parse kept.length (data.take (Head.maxSize - kept.length)) := by
    rw [Head.parse, Head.Scan.parse_append fed, Nat.zero_add]
  rw [again]
  have gathered : (kept ++ data.take (Head.maxSize - kept.length)).length =
      kept.length + min (Head.maxSize - kept.length) data.length := by
    rw [List.length_append, List.length_take]
  cases outcome : scan.parse kept.length (data.take (Head.maxSize - kept.length)) with
  | unfinished =>
      rw [outcome] at run
      unfold HeadRun at run
      simp only [gathered]
      by_cases full : Head.maxSize ≤ kept.length + data.length
      · rw [if_pos full] at run
        rw [if_pos (by omega)]
        show (parser ⟨.head, kept⟩).run data = _
        rw [here]
        exact run
      · rw [if_neg full] at run
        rw [if_neg (by omega)]
        obtain ⟨last, fedOn, run⟩ := run
        have all : data.take (Head.maxSize - kept.length) = data :=
          List.take_of_length_le (by omega)
        have least : min (Head.maxSize - kept.length) data.length = data.length := by omega
        have fedAll : Head.Scan.start.feed (kept ++ data) = some last := by
          rw [Head.Scan.feed_append fed, fedOn]
        have count : (kept ++ data).length = kept.length + data.length := List.length_append
        rw [all, least]
        constructor
        · exact .head fedAll (by omega)
        · exact Nat.le_refl _
        · show 2 * (data.length - data.length) + 1 + 1 ≤ 2 * data.length + 1
          omega
        · rw [here, run, parser_head fedAll, count, List.drop_length, Parser.Reading.andThen_ok,
            Parser.run_nil]
          rfl
  | malformed cause =>
      rw [outcome] at run
      show (parser ⟨.head, kept⟩).run data = _
      rw [here]
      exact run
  | tooManyFields =>
      rw [outcome] at run
      show (parser ⟨.head, kept⟩).run data = _
      rw [here]
      exact run
  | complete head whole =>
      obtain ⟨beyond, within⟩ := Head.Scan.lt_of_parse outcome
      rw [List.length_take] at within
      rw [outcome] at run
      have run : (Parser.head scan kept.length).run data =
          Parser.afterStep (Parser.afterHead head) fun next _ =>
            next.run (data.drop (whole - kept.length)) := run
      rw [afterHead_eq] at run
      simp only
      rcases announced : head.announce with ⟨events, cause | facts⟩
      · rw [announced] at run
        show (parser ⟨.head, kept⟩).run data = _
        rw [here]
        exact run
      · rw [announced] at run
        rw [difference?_of_le (Nat.le_of_lt beyond)]
        constructor
        · exact sound_behindHead facts
        · show whole - kept.length ≤ data.length
          omega
        · show 2 * (data.length - (whole - kept.length)) + 1 + 1 ≤ 2 * data.length + _
          omega
        · rw [here]
          exact run

/-! ## Turns in a body -/

section Body

variable {left : Nat} {b : UInt8} {rest : Bytes}

/-- What a turn takes of a body is what a step takes. -/
theorem take_min_left (more : 0 < left) :
    (b :: rest).take (min left (b :: rest).length) = b :: rest.take (left - 1) := by
  obtain ⟨fewer, rfl⟩ : ∃ fewer, left = fewer + 1 := ⟨left - 1, by omega⟩
  rw [← List.take_eq_take_min, List.take_succ_cons, Nat.add_sub_cancel]

theorem length_fragment (more : 0 < left) :
    (b :: rest.take (left - 1)).length = min left (b :: rest).length := by
  simp only [List.length_cons, List.length_take]
  omega

/-- Behind what a turn takes of a body is what a step leaves. -/
theorem drop_min_left (more : 0 < left) :
    (b :: rest).drop (min left (b :: rest).length) = rest.drop (left - 1) := by
  obtain ⟨fewer, rfl⟩ : ∃ fewer, left = fewer + 1 := ⟨left - 1, by omega⟩
  rw [Nat.add_sub_cancel, List.length_cons, Nat.succ_min_succ, List.drop_succ_cons]
  by_cases fits : fewer ≤ rest.length
  · rw [Nat.min_eq_left fits]
  · rw [Nat.min_eq_right (by omega), List.drop_length, List.drop_of_length_le (by omega)]

/-- A turn that takes as much as there is of what is left, where a step of the parser does. -/
theorem fragmentTurn_follows {place : Place} {behind : Nat → List Event × Place}
    (more : 0 < left) (sound : ∀ n, Sound ⟨(behind n).2, []⟩)
    (stepped : (parser ⟨place, []⟩).step b rest =
      (.body (b :: rest.take (left - 1)) :: (behind (left - min left (b :: rest).length)).1,
        .ok (parser ⟨(behind (left - min left (b :: rest).length)).2, []⟩, left - 1))) :
    Follows ⟨place, []⟩ (b :: rest) (fragmentTurn behind left [] (b :: rest)) := by
  have least : min left (b :: rest).length ≤ left := Nat.min_le_left _ _
  have some_data : 0 < (b :: rest).length := Nat.succ_pos _
  have ahead := ahead_le ⟨place, []⟩
  unfold fragmentTurn
  simp only [difference?_of_le least, take_min_left more]
  constructor
  · exact sound _
  · exact Nat.min_le_right _ _
  · omega
  · rw [Parser.run_cons, stepped, drop_min_left more]
    rfl

/-- A turn in a body. -/
theorem bodyTurn_follows (more : 0 < left) :
    Follows ⟨.body left, []⟩ (b :: rest) (fragmentTurn behindBody left [] (b :: rest)) := by
  refine fragmentTurn_follows more ?_ ?_
  · intro n
    cases n with
    | zero => exact .idle
    | succ n => exact .body (Nat.succ_pos n)
  · show (Parser.body left).step b rest = _
    unfold Parser.step
    simp only [length_fragment more]
    by_cases last : left ≤ min left (b :: rest).length
    · rw [if_pos last, Nat.sub_eq_zero_of_le last]
      rfl
    · obtain ⟨fewer, others⟩ := Nat.exists_eq_add_of_lt (Nat.not_le.1 last)
      have others : left - min left (b :: rest).length = fewer + 1 := by omega
      rw [if_neg last, others]
      rfl

/-- A turn in the data of a chunk. -/
theorem dataTurn_follows (more : 0 < left) :
    Follows ⟨.chunked (.data left), []⟩ (b :: rest)
      (fragmentTurn behindData left [] (b :: rest)) := by
  refine fragmentTurn_follows more ?_ ?_
  · intro n
    cases n with
    | zero => exact .chunked nofun
    | succ n => exact .chunked fun _ same => by cases same; exact Nat.succ_pos n
  · show (Parser.chunked (.data left)).step b rest = _
    unfold Parser.step Chunk.Place.afterData
    simp only [length_fragment more]
    by_cases last : left ≤ min left (b :: rest).length
    · rw [if_pos last, Nat.sub_eq_zero_of_le last]
      rfl
    · obtain ⟨fewer, others⟩ := Nat.exists_eq_add_of_lt (Nat.not_le.1 last)
      have others : left - min left (b :: rest).length = fewer + 1 := by omega
      rw [if_neg last, others]
      rfl

end Body

/-- Data begins with more than nothing where a chunk's size allows for some. -/
theorem step_data {place next : Chunk.Place} {b : UInt8} (outside : ∀ left, place ≠ .data left)
    (stepped : place.step b = .next next) : ∀ left, next = .data left → 0 < left := by
  rintro left rfl
  cases place with
  | data left => exact absurd rfl (outside left)
  | sizeFeed value =>
      unfold Chunk.Place.step at stepped
      simp only at stepped
      split at stepped
      · split at stepped
        · cases stepped
        · cases stepped
          omega
      · cases stepped
  | _ =>
      unfold Chunk.Place.step at stepped
      grind [Chunk.Place.start]

/-- A turn outside the data of a chunk. -/
theorem chunkTurn_follows {place : Chunk.Place} (outside : ∀ left, place ≠ .data left)
    (b : UInt8) (rest : Bytes) :
    Follows ⟨.chunked place, []⟩ (b :: rest) (chunkTurn place [] b) := by
  have run : (parser ⟨.chunked place, []⟩).run (b :: rest) =
      Parser.afterStep (Parser.chunkStep place b) fun next taken =>
        next.run (rest.drop taken) := by
    show (Parser.chunked place).run (b :: rest) = _
    rw [Parser.run_cons, Parser.step_outsideData outside]
  unfold Parser.chunkStep at run
  unfold chunkTurn
  cases stepped : place.step b with
  | next next =>
      rw [stepped] at run
      constructor
      · exact .chunked (step_data outside stepped)
      · exact Nat.succ_pos _
      · show 2 * (rest.length + 1 - 1) + 1 + 1 ≤ 2 * (rest.length + 1) + 1
        omega
      · exact run
  | finished =>
      rw [stepped] at run
      constructor
      · exact .idle
      · exact Nat.succ_pos _
      · show 2 * (rest.length + 1 - 1) + 1 + 1 ≤ 2 * (rest.length + 1) + 0
        omega
      · exact run
  | malformed cause =>
      rw [stepped] at run
      exact run
  | tooLong =>
      rw [stepped] at run
      exact run

/-- **What a turn comes to is what comes of the data for the parser**, and no difference is
negative. -/
theorem turn_follows {reader : Rereader} (sound : reader.Sound) (b : UInt8) (rest : Bytes) :
    Follows reader (b :: rest) (reader.turn b rest) := by
  cases sound with
  | idle =>
      unfold turn
      simp only
      split
      · rename_i lineEnd
        constructor
        · exact .idle
        · exact Nat.succ_pos _
        · show 2 * (rest.length + 1 - 1) + 1 + 0 ≤ 2 * (rest.length + 1) + 0
          omega
        · show Parser.idle.run (b :: rest) = _
          rw [Parser.run_cons, Parser.step, if_pos lineEnd]
          rfl
      · rename_i noLineEnd
        constructor
        · exact .head rfl (Nat.succ_pos _)
        · exact Nat.zero_le _
        · show 2 * (rest.length + 1 - 0) + 1 + 0 ≤ 2 * (rest.length + 1) + 1
          omega
        · -- the first octet of the message begins it and belongs to its head
          have head : (Parser.head Head.Scan.start 0).run (b :: rest) = _ :=
            Parser.run_cons _ b rest
          show Parser.idle.run (b :: rest) =
            (.begin :: ((Parser.head Head.Scan.start 0).run (b :: rest)).1,
              ((Parser.head Head.Scan.start 0).run (b :: rest)).2)
          rw [head, Parser.run_cons, Parser.step, if_neg noLineEnd, Parser.step]
          rcases Parser.headStep Head.Scan.start 0 b with ⟨events, fault | after⟩ <;> rfl
  | head fed room => exact headTurn_follows fed room (List.cons_ne_nil b rest)
  | body more => exact bodyTurn_follows more
  | @chunked place more =>
      by_cases data : ∃ left, place = .data left
      · obtain ⟨left, rfl⟩ := data
        exact dataTurn_follows (more left rfl)
      · have outside : ∀ left, place ≠ .data left := fun left same => data ⟨left, same⟩
        have single : turn ⟨.chunked place, []⟩ b rest = chunkTurn place [] b := by
          cases place with
          | data left => exact absurd rfl (outside left)
          | _ => rfl
        rw [single]
        exact chunkTurn_follows outside b rest
  | upgraded =>
      constructor
      · exact .upgraded
      · exact Nat.le_refl _
      · show 2 * (rest.length + 1 - (rest.length + 1)) + 1 + 1 ≤ 2 * (rest.length + 1) + 1
        omega
      · show Parser.upgraded.run (b :: rest) = _
        rw [Parser.run_cons, List.drop_succ_cons]
        rfl
  | failed => exact Parser.run_cons .failed b rest

/-! ## The loop -/

end Rereader

/-- A parser takes all that it is fed, or has failed. -/
theorem Parser.execute_outcome {σ : Type} (parser : Parser) (listener : Listener σ) (state : σ)
    (data : Bytes) :
    (parser.execute listener state data).result = .ok data.length ∨
      ∃ fault, (parser.execute listener state data).result = .error fault ∧
        (parser.execute listener state data).parser = .failed := by
  rw [execute_eq, tell]
  rcases deliver listener (parser.run data).1 state with ⟨_ | refusal, heard⟩
  · rcases (parser.run data).2 with fault | next
    · exact .inr ⟨fault, rfl, rfl⟩
    · exact .inl rfl
  · exact .inr ⟨_, rfl, rfl⟩

namespace Rereader

variable {σ : Type}

/-- The same execution, with the parser that the reader stands for. -/
def Fed.execution (fed : Fed σ) : Parser.Execution σ := ⟨fed.reader.parser, fed.state, fed.result⟩

/-- **The loop ends, and comes to what comes of the data for the parser**, with two turns for
each octet. -/
theorem loop_follows (listener : Listener σ) {turns : Nat} {reader : Rereader}
    (sound : reader.Sound) (state : σ) (taken : Nat) {data : Bytes}
    (enough : 2 * data.length ≤ turns + reader.ahead) :
    ∃ fed, loop listener turns reader state taken data = .done fed ∧ fed.reader.Sound ∧
      fed.execution =
        Parser.tell listener (reader.parser.run data) (taken + data.length) state := by
  induction turns generalizing reader state taken data with
  | zero =>
      cases data with
      | nil => exact ⟨⟨reader, state, .ok taken⟩, rfl, sound, by rw [Parser.run_nil]; rfl⟩
      | cons b rest =>
          exfalso
          have := reader.ahead_le
          rw [List.length_cons] at enough
          omega
  | succ turns ih =>
      cases data with
      | nil => exact ⟨⟨reader, state, .ok taken⟩, rfl, sound, by rw [Parser.run_nil]; rfl⟩
      | cons b rest =>
          have follows := turn_follows sound b rest
          unfold loop
          rcases turned : reader.turn b rest with ⟨events, fate⟩
          rw [turned] at follows
          simp only
          cases fate with
          | underflow => exact follows.elim
          | stopped fault =>
              have run : reader.parser.run (b :: rest) = (events, .error fault) := follows
              rw [run, Parser.tell]
              rcases deliver listener events state with ⟨refusal | _, heard⟩
              · exact ⟨_, rfl, .failed, rfl⟩
              · exact ⟨_, rfl, .failed, rfl⟩
          | onward next more =>
              have advances : Advances reader next (b :: rest) events more := follows
              obtain ⟨nextSound, fits, nearer, reads⟩ := advances
              rw [reads, Parser.tell, Parser.Reading.andThen_ok, Parser.deliver_append]
              rcases deliver listener events state with ⟨refusal | _, heard⟩
              · simp only
                have left : ((b :: rest).drop more).length = (b :: rest).length - more :=
                  List.length_drop
                have onward : 2 * ((b :: rest).drop more).length ≤ turns + next.ahead := by
                  omega
                obtain ⟨fed, looped, fedSound, same⟩ := ih nextSound heard (taken + more) onward
                refine ⟨fed, looped, fedSound, ?_⟩
                rw [same, Parser.tell]
                have count : taken + more + ((b :: rest).drop more).length =
                    taken + (b :: rest).length := by omega
                rw [count]
              · exact ⟨_, rfl, .failed, rfl⟩

/-! ## Readers in use -/

/-- A reader in use: new, fed with any listener, or reset. -/
inductive Reachable : Rereader → Prop where
  | new : Reachable new
  | fed {σ : Type} {reader : Rereader} {listener : Listener σ} {state : σ} {piece : Bytes}
      {fed : Fed σ} (reachable : Reachable reader)
      (executed : reader.execute listener state piece = .done fed) : Reachable fed.reader
  | reset {reader : Rereader} (reachable : Reachable reader) : Reachable reader.reset

theorem execute_follows {reader : Rereader} (sound : reader.Sound) (listener : Listener σ)
    (state : σ) (piece : Bytes) :
    ∃ fed, reader.execute listener state piece = .done fed ∧ fed.reader.Sound ∧
      fed.execution = reader.parser.execute listener state piece := by
  have enough : 2 * piece.length ≤ 2 * piece.length + reader.ahead := Nat.le_add_right _ _
  have looped := loop_follows listener sound state 0 enough
  rwa [Nat.zero_add, ← Parser.execute_eq] at looped

theorem Reachable.sound {reader : Rereader} (reachable : reader.Reachable) : reader.Sound := by
  induction reachable with
  | new => exact .idle
  | @fed σ reader listener state piece fed _ executed sound =>
      obtain ⟨same, looped, fedSound, -⟩ := execute_follows sound listener state piece
      rw [looped] at executed
      cases executed
      exact fedSound
  | reset => exact .idle

/-- What is right of a reader. -/
structure Safe (reader : Rereader) : Prop where
  /-- A head that is not complete may still take something. -/
  room : reader.kept.length < Head.maxSize
  /-- A head that a piece completes ends in the piece. -/
  beyond : ∀ piece head size,
    Head.parse (reader.kept ++ piece) = .complete head size → reader.kept.length < size
  /-- Every piece is done with, as it is for the parser; all of it was taken, or there is a
  fault and the reader has failed. -/
  done : ∀ {σ : Type} (listener : Listener σ) (state : σ) (piece : Bytes), ∃ fed,
    reader.execute listener state piece = .done fed ∧
      fed.execution = reader.parser.execute listener state piece ∧
      (fed.result = .ok piece.length ∨ ∃ fault, fed.result = .error fault ∧ fed.reader = new.fail)
  /-- A reader that has failed tells nothing. -/
  silent : reader.place = .failed → ∀ {σ : Type} (listener : Listener σ) (state : σ)
    (piece : Bytes), piece ≠ [] → reader.execute listener state piece =
      .done ⟨new.fail, state, .error (.invalid .failedState)⟩
  /-- After a reset nothing is left of what was read. -/
  renewed : reader.reset = new

theorem Sound.fed {reader : Rereader} (sound : reader.Sound) :
    ∃ scan, Head.Scan.start.feed reader.kept = some scan := by
  cases sound with
  | head fed room => exact ⟨_, fed⟩
  | _ => exact ⟨_, rfl⟩

theorem Sound.done {reader : Rereader} (sound : reader.Sound) (listener : Listener σ) (state : σ)
    (piece : Bytes) :
    ∃ fed, reader.execute listener state piece = .done fed ∧
      fed.execution = reader.parser.execute listener state piece ∧
      (fed.result = .ok piece.length ∨
        ∃ fault, fed.result = .error fault ∧ fed.reader = new.fail) := by
  obtain ⟨fed, executed, fedSound, same⟩ := execute_follows sound listener state piece
  refine ⟨fed, executed, same, ?_⟩
  have outcome := reader.parser.execute_outcome listener state piece
  rw [← same] at outcome
  rcases outcome with taken | ⟨fault, stopped, failed⟩
  · exact .inl taken
  · exact .inr ⟨fault, stopped, fedSound.failed_of_parser failed⟩

/-- **A parser that reads a head again with every piece is safe**: whatever it was fed before,
with whatever listeners, it has room for more of a head, computes no negative difference, and
is done with every piece in two turns for each octet, as the parser that remembers its place. -/
theorem Reachable.safe {reader : Rereader} (reachable : reader.Reachable) : reader.Safe := by
  have sound := reachable.sound
  constructor
  · exact sound.room
  · intro piece head size complete
    obtain ⟨scan, fed⟩ := sound.fed
    rw [Head.parse, Head.Scan.parse_append fed, Nat.zero_add] at complete
    exact (Head.Scan.lt_of_parse complete).1
  · intro σ listener state piece
    exact sound.done listener state piece
  · intro failed σ listener state piece nonempty
    obtain ⟨b, rest, rfl⟩ := List.exists_cons_of_ne_nil nonempty
    cases sound with
    | failed => rfl
    | _ => cases failed
  · rfl

/-- In the version of a start line. -/
theorem safe_in_version :
    let reader : Rereader := ⟨.head, Bytes.ofAscii "GET / HT"⟩
    reader.Reachable ∧ reader.Safe := by
  have reachable : Reachable ⟨.head, Bytes.ofAscii "GET / HT"⟩ :=
    @Reachable.fed Unit new (fun _ state => (none, state)) () (Bytes.ofAscii "GET / HT")
      ⟨⟨.head, Bytes.ofAscii "GET / HT"⟩, (), .ok 8⟩ .new rfl
  exact ⟨reachable, reachable.safe⟩

end Rereader

end EmbeddedHttp
