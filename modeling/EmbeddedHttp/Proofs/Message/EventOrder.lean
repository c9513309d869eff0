/-
# EmbeddedHttp.Proofs.Message.EventOrder -- in which order a parser tells of messages

What a parser tells is the front of a word: messages one after the other (`IsMessages`), each
with its beginning, its target, its fields, its head, its body and its end, with as much body as
the head announces and no piece of it empty.  A message that upgrades the connection is the last
one (`IsUpgraded`): it ends with its head, and the pieces of body behind it are exactly the
octets that come behind its head.

`Stands` says where in a word a parser is, one case for each state in which it can be, and
every step keeps it (`step_continues`).  With what holds of sessions it follows for any listener
and any use of a parser (`Session.useAll_inOrder`).
-/
import EmbeddedHttp.Proofs.Message.FieldReading
import EmbeddedHttp.Proofs.Message.Sessions

namespace EmbeddedHttp

set_option autoImplicit false

/-! ## Words -/

/-- What a message says. -/
structure Telling where
  target : Bytes
  fields : List (Bytes × Bytes)
  facts : HeadFacts
  bodies : List Bytes
  deriving DecidableEq, Repr

namespace Telling

/-- From its beginning to its head. -/
def opening (message : Telling) : List Event :=
  .begin :: .target message.target :: (Head.fieldEvents message.fields ++ [.head message.facts])

/-- From its beginning to its end. -/
def events (message : Telling) : List Event :=
  message.opening ++ (message.bodies.map .body ++ [.complete])

/-- A message that upgrades the connection, and what comes behind it. -/
def upgradeEvents (message : Telling) : List Event :=
  message.opening ++ .complete :: message.bodies.map .body

/-- The message upgrades nothing, and its body is as its head announces. -/
structure Framed (message : Telling) : Prop where
  plain : message.facts.upgrade = false
  proper : ∀ bytes ∈ message.bodies, bytes ≠ []
  none : message.facts.framing = .none → message.bodies = []
  length : ∀ n, message.facts.framing = .length n → message.bodies.flatten.length = n

/-- The message upgrades the connection. -/
structure Upgrades (message : Telling) : Prop where
  upgrade : message.facts.upgrade = true
  proper : ∀ bytes ∈ message.bodies, bytes ≠ []

/-- The message with one more piece of body. -/
def add (message : Telling) (piece : Bytes) : Telling :=
  { message with bodies := message.bodies ++ [piece] }

theorem proper_add {message : Telling} {piece : Bytes} (nonempty : piece ≠ [])
    (proper : ∀ bytes ∈ message.bodies, bytes ≠ []) :
    ∀ bytes ∈ (message.add piece).bodies, bytes ≠ [] := by
  intro bytes member
  rcases List.mem_append.1 member with earlier | here
  · exact proper bytes earlier
  · rwa [List.mem_singleton.1 here]

theorem flatten_add (message : Telling) (piece : Bytes) :
    (message.add piece).bodies.flatten = message.bodies.flatten ++ piece := by
  simp [add]

theorem map_add (message : Telling) (piece : Bytes) :
    (message.add piece).bodies.map Event.body = message.bodies.map .body ++ [.body piece] :=
  List.map_append

/-- Messages one after the other. -/
def allEvents (messages : List Telling) : List Event := messages.flatMap events

theorem allEvents_concat (messages : List Telling) (message : Telling) :
    allEvents (messages ++ [message]) = allEvents messages ++ message.events := by
  simp [allEvents]

end Telling

/-- The octets up to the end of a head that announces the facts: the last of them completes
the head that is being read. -/
def EndsHead (front : Bytes) (facts : HeadFacts) : Prop :=
  ∃ before b scan size raw, front = before ++ [b] ∧
    (Parser.idle.octets before).2 = .ok (.head scan size) ∧
    scan.step b = .complete raw ∧ raw.announce.2 = .ok facts

/-- Messages one after the other. -/
def IsMessages (word : List Event) : Prop :=
  ∃ messages : List Telling, (∀ message ∈ messages, message.Framed) ∧
    word = Telling.allEvents messages

/-- Messages, and one that upgrades the connection: all of the stream behind its head is in the
pieces of body. -/
def IsUpgraded (stream : Bytes) (word : List Event) : Prop :=
  ∃ (messages : List Telling) (last : Telling) (front : Bytes),
    (∀ message ∈ messages, message.Framed) ∧ last.Upgrades ∧ EndsHead front last.facts ∧
      stream = front ++ last.bodies.flatten ∧
      word = Telling.allEvents messages ++ last.upgradeEvents

namespace Parser

variable {read : Bytes} {told : List Event} {messages : List Telling} {parser : Parser}

/-! ## What a head says -/

/-- The fields are told in order, up to one that is at fault. -/
theorem announceFields_events (notes : Head.Notes) (fields : List (Bytes × Bytes)) :
    ∃ done, (Head.announceFields notes fields).1 = Head.fieldEvents done ∧ done <+: fields ∧
      ∀ later, (Head.announceFields notes fields).2 = .ok later → done = fields := by
  induction fields generalizing notes with
  | nil => exact ⟨[], rfl, List.nil_prefix, fun _ _ => rfl⟩
  | cons field rest ih =>
      obtain ⟨name, value⟩ := field
      unfold Head.announceFields
      cases notes.add name value with
      | error cause =>
          exact ⟨[(name, value)], rfl, (List.prefix_cons_inj _).2 List.nil_prefix,
            fun later none => by cases none⟩
      | ok next =>
          obtain ⟨done, events, within, whole⟩ := ih next
          refine ⟨(name, value) :: done, ?_, (List.prefix_cons_inj _).2 within,
            fun later ends => by rw [whole later ends]⟩
          simp only [events, Head.fieldEvents_cons]

/-- A head tells its target and its fields up to one that is at fault; and if none is, all of
them and its facts. -/
theorem announce_events (raw : Head.Raw) :
    (∃ fields cause, fields <+: raw.fields ∧
      raw.announce = (.target raw.target :: Head.fieldEvents fields, .error cause)) ∨
    ∃ facts, raw.announce =
      (.target raw.target :: (Head.fieldEvents raw.fields ++ [.head facts]), .ok facts) := by
  obtain ⟨done, events, within, whole⟩ := announceFields_events Head.Notes.none raw.fields
  simp only [Head.Raw.announce, events]
  cases ends : (Head.announceFields Head.Notes.none raw.fields).2 with
  | error cause => exact .inl ⟨done, cause, within, rfl⟩
  | ok notes =>
      rw [whole notes ends]
      exact .inr ⟨_, rfl⟩

theorem announce_ok {raw : Head.Raw} {facts : HeadFacts} (announced : raw.announce.2 = .ok facts) :
    raw.announce.1 = .target raw.target :: (Head.fieldEvents raw.fields ++ [.head facts]) := by
  obtain ⟨fields, cause, -, faulty⟩ | ⟨told, whole⟩ := announce_events raw
  · rw [faulty] at announced
    cases announced
  · rw [whole] at announced ⊢
    cases announced
    rfl

/-! ## Where a parser stands -/

/-- Where in a word a parser is that has read some octets. -/
inductive Stands (read : Bytes) : List Event → Parser → Prop where
  | idle (messages : List Telling) (framed : ∀ message ∈ messages, message.Framed) :
      Stands read (Telling.allEvents messages) .idle
  | head (messages : List Telling) (framed : ∀ message ∈ messages, message.Framed)
      (scan : Head.Scan) (size : Nat) :
      Stands read (Telling.allEvents messages ++ [.begin]) (.head scan size)
  | body (messages : List Telling) (framed : ∀ message ∈ messages, message.Framed)
      (last : Telling) (plain : last.facts.upgrade = false) (n left : Nat)
      (length : last.facts.framing = .length n) (proper : ∀ bytes ∈ last.bodies, bytes ≠ [])
      (whole : last.bodies.flatten.length + left = n) (more : 0 < left) :
      Stands read (Telling.allEvents messages ++ last.opening ++ last.bodies.map .body)
        (.body left)
  | chunked (messages : List Telling) (framed : ∀ message ∈ messages, message.Framed)
      (last : Telling) (plain : last.facts.upgrade = false)
      (coded : last.facts.framing = .chunked) (proper : ∀ bytes ∈ last.bodies, bytes ≠ [])
      (place : Chunk.Place) :
      Stands read (Telling.allEvents messages ++ last.opening ++ last.bodies.map .body)
        (.chunked place)
  | upgraded (told : List Event) (word : IsUpgraded read told) : Stands read told .upgraded

/-- Reading stopped at a fault, before any upgrade. -/
def Breaks (told : List Event) : Prop :=
  ∃ word, IsMessages word ∧ told <+: word

theorem framed_concat {last : Telling} (framed : ∀ message ∈ messages, message.Framed)
    (one : last.Framed) : ∀ message ∈ messages ++ [last], message.Framed := by
  intro message member
  rcases List.mem_append.1 member with earlier | here
  · exact framed message earlier
  · rw [List.mem_singleton.1 here]
    exact one

/-- What was told of a message so far is the front of a message, however it goes on. -/
theorem Breaks.of_front {last : Telling} (framed : ∀ message ∈ messages, message.Framed)
    (one : last.Framed) {front : List Event} (front_of : front <+: last.events) :
    Breaks (Telling.allEvents messages ++ front) := by
  refine ⟨_, ⟨messages ++ [last], framed_concat framed one, rfl⟩, ?_⟩
  rw [Telling.allEvents_concat]
  exact (List.prefix_append_right_inj _).2 front_of

/-- A message without a body, with a given target and fields. -/
def bare (target : Bytes) (fields : List (Bytes × Bytes)) : Telling :=
  ⟨target, fields, ⟨[], .http11, .none, false⟩, []⟩

theorem bare_framed (target : Bytes) (fields : List (Bytes × Bytes)) :
    (bare target fields).Framed :=
  ⟨rfl, nofun, fun _ => rfl, nofun⟩

/-- A message that has begun. -/
theorem Breaks.begun (framed : ∀ message ∈ messages, message.Framed) :
    Breaks (Telling.allEvents messages ++ [.begin]) :=
  .of_front framed (bare_framed [] []) ⟨_, rfl⟩

/-- A message with a fault in its fields. -/
theorem Breaks.fields (framed : ∀ message ∈ messages, message.Framed) (target : Bytes)
    (fields : List (Bytes × Bytes)) :
    Breaks (Telling.allEvents messages ++
      .begin :: .target target :: Head.fieldEvents fields) := by
  refine .of_front framed (bare_framed target fields)
    ⟨[.head ⟨[], .http11, .none, false⟩, .complete], ?_⟩
  simp [bare, Telling.events, Telling.opening]

/-- A message with part of its body. -/
theorem Breaks.bodies {last : Telling} (more : List Bytes)
    (framed : ∀ message ∈ messages, message.Framed)
    (one : ({ last with bodies := last.bodies ++ more } : Telling).Framed) :
    Breaks (Telling.allEvents messages ++ last.opening ++ last.bodies.map .body) := by
  rw [List.append_assoc]
  refine .of_front framed one ⟨more.map .body ++ [.complete], ?_⟩
  show _ = last.opening ++ ((last.bodies ++ more).map .body ++ [.complete])
  simp only [List.map_append, List.append_assoc]

/-- Wherever a parser stands, what was told is the front of a word, and of one without an
upgrade unless there was one. -/
theorem Stands.breaks (stands : Stands read told parser) (notUpgraded : parser ≠ .upgraded) :
    Breaks told := by
  cases stands with
  | idle messages framed => exact ⟨_, ⟨messages, framed, rfl⟩, List.prefix_rfl⟩
  | head messages framed scan size => exact .begun framed
  | body messages framed last plain n left length proper whole more =>
      -- what is left of the body may come in one piece
      refine .bodies [List.replicate left 0] framed ⟨plain, ?_, ?_, ?_⟩
      · intro bytes member
        rcases List.mem_append.1 member with earlier | here
        · exact proper bytes earlier
        · rw [List.mem_singleton.1 here]
          intro empty
          have := congrArg List.length empty
          rw [List.length_replicate, List.length_nil] at this
          omega
      · intro none
        rw [show _ = _ from length] at none
        cases none
      · intro m same
        obtain rfl : n = m := by
          have := length.symm.trans same
          cases this
          rfl
        simp only [List.flatten_append, List.length_append, List.flatten_singleton,
          List.length_replicate]
        exact whole
  | chunked messages framed last plain coded proper place =>
      refine .bodies [] framed ⟨plain, ?_, ?_, ?_⟩
      · simpa using proper
      · intro none
        cases coded.symm.trans none
      · intro n length
        cases coded.symm.trans length
  | upgraded => exact absurd rfl notUpgraded

theorem Stands.isUpgraded (stands : Stands read told .upgraded) : IsUpgraded read told := by
  cases stands with
  | upgraded _ word => exact word

/-! ## One step -/

/-- A step at the octet `b` tells what may come next, and leads where the parser then
stands. -/
def Continues (read : Bytes) (told : List Event) (b : UInt8) (rest : Bytes) (step : Step) :
    Prop :=
  match step.2 with
  | .ok (next, taken) => Stands (read ++ b :: rest.take taken) (told ++ step.1) next
  | .error _ => Breaks (told ++ step.1)

/-- Behind a message that is complete the parser is between messages. -/
theorem Stands.completed (last : Telling) (framed : ∀ message ∈ messages, message.Framed)
    (one : last.Framed) :
    Stands read (Telling.allEvents messages ++ last.opening ++
      (last.bodies.map .body ++ [.complete])) .idle := by
  have stands : Stands read (Telling.allEvents (messages ++ [last])) .idle :=
    .idle _ (framed_concat framed one)
  rwa [Telling.allEvents_concat, Telling.events, ← List.append_assoc] at stands

/-- What a head announces is the opening of a message that has begun. -/
theorem opening_eq (messages : List Telling) (target : Bytes) (fields : List (Bytes × Bytes))
    (facts : HeadFacts) (bodies : List Bytes) :
    Telling.allEvents messages ++ [.begin] ++
        (.target target :: (Head.fieldEvents fields ++ [.head facts])) =
      Telling.allEvents messages ++ (Telling.mk target fields facts bodies).opening := by
  rw [List.append_assoc]
  rfl

/-- A head that the octet completes. -/
theorem afterHead_continues {raw : Head.Raw} {b : UInt8} {rest : Bytes}
    (framed : ∀ message ∈ messages, message.Framed)
    (ends : ∀ facts, raw.announce.2 = .ok facts → EndsHead (read ++ [b]) facts) :
    Continues read (Telling.allEvents messages ++ [.begin]) b rest (afterHead raw) := by
  obtain ⟨fields, cause, -, announced⟩ | ⟨facts, announced⟩ := announce_events raw
  · unfold afterHead
    rw [announced]
    show Breaks _
    rw [List.append_assoc]
    exact .fields framed raw.target fields
  · have opened := opening_eq messages raw.target raw.fields facts []
    let last : Telling := ⟨raw.target, raw.fields, facts, []⟩
    -- without a body the message ends with its head
    have whole (one : last.Framed) : Continues read (Telling.allEvents messages ++ [.begin]) b rest
        (.target raw.target :: (Head.fieldEvents raw.fields ++ [.head facts]) ++ [.complete],
          .ok (.idle, 0)) := by
      show Stands _ (_ ++ (_ ++ _)) .idle
      rw [← List.append_assoc, opened]
      exact .completed last framed one
    have begun (next : Parser) (stands : Stands (read ++ b :: rest.take 0)
        (Telling.allEvents messages ++ last.opening ++ last.bodies.map .body) next) :
        Continues read (Telling.allEvents messages ++ [.begin]) b rest
          (.target raw.target :: (Head.fieldEvents raw.fields ++ [.head facts]),
            .ok (next, 0)) := by
      show Stands _ (_ ++ _) next
      rw [opened, ← List.append_nil (_ ++ Telling.opening _)]
      exact stands
    unfold afterHead
    simp only [announced]
    by_cases upgrade : facts.upgrade = true
    · rw [if_pos upgrade]
      have ended := ends facts (by rw [announced])
      show Stands _ (_ ++ (_ ++ _)) .upgraded
      rw [← List.append_assoc, opened, List.append_assoc]
      exact .upgraded _ ⟨messages, last, _, framed, ⟨upgrade, nofun⟩, ended,
        (List.append_nil _).symm, rfl⟩
    · have plain : facts.upgrade = false := by rwa [Bool.not_eq_true] at upgrade
      rw [if_neg upgrade]
      cases framing : facts.framing with
      | chunked => exact begun _ (.chunked messages framed last plain framing nofun _)
      | none =>
          refine whole ⟨plain, nofun, fun _ => rfl, fun m same => ?_⟩
          cases framing.symm.trans same
      | length n =>
          cases n with
          | zero =>
              refine whole ⟨plain, nofun, fun _ => rfl, fun m same => ?_⟩
              cases framing.symm.trans same
              rfl
          | succ n =>
              exact begun _ (.body messages framed last plain (n + 1) (n + 1) framing nofun
                (Nat.zero_add _) (Nat.succ_pos n))

/-- An octet of a head. -/
theorem headStep_continues {scan : Head.Scan} {size : Nat} {b : UInt8} {rest : Bytes}
    (framed : ∀ message ∈ messages, message.Framed)
    (ends : ∀ raw facts, scan.step b = .complete raw → raw.announce.2 = .ok facts →
      EndsHead (read ++ [b]) facts) :
    Continues read (Telling.allEvents messages ++ [.begin]) b rest (headStep scan size b) := by
  have faulty : Breaks (Telling.allEvents messages ++ [.begin] ++ []) := by
    rw [List.append_nil]
    exact .begun framed
  unfold headStep
  cases stepped : scan.step b with
  | more next =>
      simp only
      split
      · exact faulty
      · unfold Continues
        simp only [List.append_nil]
        exact .head messages framed next (size + 1)
  | complete raw => exact afterHead_continues framed fun facts => ends raw facts stepped
  | malformed cause => exact faulty
  | tooManyFields => exact faulty

/-- The first octet of a head does not complete it. -/
theorem start_step_ne_complete (b : UInt8) (raw : Head.Raw) :
    Head.Scan.start.step b ≠ .complete raw := by
  unfold Head.Scan.step Head.Scan.start
  simp only
  split
  · nofun
  · split <;> nofun

/-- A piece of a body of given length. -/
theorem body_continues {last : Telling} {n left : Nat} (b : UInt8) (rest : Bytes)
    (framed : ∀ message ∈ messages, message.Framed) (plain : last.facts.upgrade = false)
    (length : last.facts.framing = .length n) (proper : ∀ bytes ∈ last.bodies, bytes ≠ [])
    (whole : last.bodies.flatten.length + left = n) (more : 0 < left) :
    Continues read (Telling.allEvents messages ++ last.opening ++ last.bodies.map .body) b rest
      ((Parser.body left).step b rest) := by
  have fits : (b :: rest.take (left - 1)).length ≤ left := by
    rw [List.length_cons, List.length_take]
    omega
  have nonempty : b :: rest.take (left - 1) ≠ [] := List.cons_ne_nil _ _
  unfold Parser.step
  simp only
  generalize b :: rest.take (left - 1) = piece at fits nonempty ⊢
  have count : (last.add piece).bodies.flatten.length =
      last.bodies.flatten.length + piece.length := by
    rw [Telling.flatten_add, List.length_append]
  have added := Telling.proper_add nonempty proper
  split
  · -- the piece has all that was left
    have one : (last.add piece).Framed := by
      refine ⟨plain, added, fun none => ?_, fun m same => ?_⟩
      · cases length.symm.trans none
      · cases length.symm.trans same
        omega
    have stands : Stands (read ++ b :: rest.take (left - 1)) _ .idle :=
      .completed (last.add piece) framed one
    rw [Telling.map_add, List.append_assoc (last.bodies.map _), ← List.append_assoc] at stands
    exact stands
  · unfold Continues
    simp only [List.append_assoc]
    rw [← Telling.map_add, ← List.append_assoc]
    exact .body messages framed (last.add piece) plain n _ length added (by omega) (by omega)

/-- An octet of a body in chunks, or a piece of the data of one. -/
theorem chunked_continues {last : Telling} (place : Chunk.Place) (b : UInt8) (rest : Bytes)
    (framed : ∀ message ∈ messages, message.Framed) (plain : last.facts.upgrade = false)
    (coded : last.facts.framing = .chunked) (proper : ∀ bytes ∈ last.bodies, bytes ≠ []) :
    Continues read (Telling.allEvents messages ++ last.opening ++ last.bodies.map .body) b rest
      ((Parser.chunked place).step b rest) := by
  have onward : ∀ next, Stands (read ++ b :: rest.take 0)
      (Telling.allEvents messages ++ last.opening ++ last.bodies.map .body ++ [])
      (.chunked next) := by
    intro next
    rw [List.append_nil]
    exact .chunked messages framed last plain coded proper next
  have one : last.Framed := by
    refine ⟨plain, proper, fun none => ?_, fun n length => ?_⟩
    · cases coded.symm.trans none
    · cases coded.symm.trans length
  have faulty : Breaks
      (Telling.allEvents messages ++ last.opening ++ last.bodies.map .body ++ []) := by
    rw [List.append_nil]
    have stands : Stands read _ (.chunked place) :=
      .chunked messages framed last plain coded proper place
    exact stands.breaks nofun
  by_cases data : ∃ left, place = .data left
  · obtain ⟨left, rfl⟩ := data
    unfold Continues Parser.step
    simp only
    rw [List.append_assoc, ← Telling.map_add]
    exact .chunked messages framed (last.add _) plain coded
      (Telling.proper_add (List.cons_ne_nil _ _) proper) _
  · rw [step_outsideData fun left same => data ⟨left, same⟩]
    unfold chunkStep
    cases place.step b with
    | next next => exact onward next
    | finished =>
        unfold Continues
        simp only
        rw [List.append_assoc]
        exact .completed last framed one
    | malformed cause => exact faulty
    | tooLong => exact faulty

/-- **Every step tells what may come next.** -/
theorem step_continues (stands : Stands read told parser)
    (reads : (Parser.idle.octets read).2 = .ok parser) (b : UInt8) (rest : Bytes) :
    Continues read told b rest (parser.step b rest) := by
  cases stands with
  | idle messages framed =>
      unfold step
      simp only
      split
      · unfold Continues
        simp only [List.append_nil]
        exact .idle messages framed
      · have first : Continues read (Telling.allEvents messages ++ [.begin]) b rest
            (headStep Head.Scan.start 0 b) :=
          headStep_continues framed fun raw facts complete =>
            absurd complete (start_step_ne_complete b raw)
        unfold Continues at first ⊢
        simpa only [List.append_assoc, List.singleton_append] using first
  | head messages framed scan size =>
      exact headStep_continues framed fun raw facts complete announced =>
        ⟨read, b, scan, size, raw, rfl, reads, complete, announced⟩
  | body messages framed last plain n left length proper whole more =>
      exact body_continues b rest framed plain length proper whole more
  | chunked messages framed last plain coded proper place =>
      exact chunked_continues place b rest framed plain coded proper
  | upgraded _ word =>
      obtain ⟨messages, last, front, framed, upgrades, ends, behind, rfl⟩ := word
      unfold step Continues
      simp only [List.take_length]
      refine .upgraded _ ⟨messages, last.add (b :: rest), front, framed,
        ⟨upgrades.upgrade, Telling.proper_add (List.cons_ne_nil _ _) upgrades.proper⟩, ends, ?_, ?_⟩
      · rw [behind, Telling.flatten_add, List.append_assoc]
      · have bodies := Telling.map_add last (b :: rest)
        simp only [Telling.upgradeEvents, bodies, List.append_assoc, List.cons_append]
        rfl

/-! ## Whole runs -/

/-- What reading told, and where it led. -/
def Ordered (read : Bytes) (told : List Event) : Except ParseError Parser → Prop
  | .ok parser => Stands read told parser ∧ (Parser.idle.octets read).2 = .ok parser
  | .error _ => Breaks told

/-- Reading on tells what may come next. -/
theorem run_ordered (stands : Stands read told parser)
    (reads : (Parser.idle.octets read).2 = .ok parser) (data : Bytes) :
    Ordered (read ++ data) (told ++ (parser.run data).1) (parser.run data).2 := by
  induction size : data.length using Nat.strongRecOn generalizing read told parser data with
  | ind n ih =>
      cases data with
      | nil =>
          simp only [run_nil, List.append_nil]
          exact ⟨stands, reads⟩
      | cons b rest =>
          have continues := step_continues stands reads b rest
          rw [run_cons]
          cases stepped : parser.step b rest with
          | mk events result =>
            rw [stepped] at continues
            cases result with
            | error fault => exact continues
            | ok after =>
                obtain ⟨next, taken⟩ := after
                have shorter : (rest.drop taken).length < n := by
                  simp only [List.length_cons] at size
                  simp only [List.length_drop]
                  omega
                have read_on : (Parser.idle.octets (read ++ b :: rest.take taken)).2 =
                    .ok next := by
                  rcases first : Parser.idle.octets read with ⟨before, outcome⟩
                  rw [first] at reads
                  cases reads
                  rw [octets_append_ok first, octets_of_step stepped]
                have later := ih _ shorter continues read_on (rest.drop taken) rfl
                simp only [List.append_assoc, List.cons_append, List.take_append_drop] at later
                exact later

/-- **What pieces say is in order**, however they are cut. -/
theorem runAll_ordered (pieces : List Bytes) :
    Ordered pieces.flatten (runAll pieces .idle).1 (runAll pieces .idle).2 := by
  suffices onward : ∀ read told parser, Stands read told parser →
      (Parser.idle.octets read).2 = .ok parser →
      Ordered (read ++ pieces.flatten) (told ++ (runAll pieces parser).1)
        (runAll pieces parser).2 from
    onward [] [] .idle (.idle [] nofun) rfl
  induction pieces with
  | nil =>
      intro read told parser stands reads
      simp only [runAll, List.flatten_nil, List.append_nil]
      exact ⟨stands, reads⟩
  | cons piece rest ih =>
      intro read told parser stands reads
      have first := run_ordered stands reads piece
      rw [runAll, List.flatten_cons]
      generalize parser.run piece = reading at first ⊢
      obtain ⟨events, result⟩ := reading
      cases result with
      | error fault => exact first
      | ok next =>
          simp only [Reading.andThen_ok]
          rw [← List.append_assoc, ← List.append_assoc]
          exact ih _ _ next first.1 first.2

end Parser

/-! ## Parsers in use -/

/-- **Messages are told in order.**  What a parser in use has told since the last reset is the
front of a word: messages as their heads frame them, and at most one upgrade, which ends the
last of them at its head and makes body of all that is fed behind that.  Behind an upgrade
everything is told at once, and behind an event that is refused, or a fault, nothing is. -/
theorem Session.useAll_inOrder {σ : Type} (listener : Listener σ) (uses : List Use) (state : σ) :
    let session := useAll listener uses (new state)
    (∃ word, (IsMessages word ∨ IsUpgraded session.stream word) ∧ session.told <+: word) ∧
      (session.parser = .upgraded → IsUpgraded session.stream session.told) ∧
      session.log.Pairwise Note.Silences := by
  intro session
  have sound : session.Sound := sound_useAll listener uses state
  have ordered := Parser.runAll_ordered session.pieces
  refine ⟨?_, ?_, sound.silent⟩
  · have front := sound.front
    rcases reading : Parser.runAll session.pieces .idle with ⟨events, result⟩
    rw [reading] at front ordered
    cases result with
    | error fault =>
        obtain ⟨word, messages, broken⟩ := ordered
        exact ⟨word, .inl messages, front.trans broken⟩
    | ok parser =>
        by_cases upgraded : parser = .upgraded
        · subst upgraded
          exact ⟨events, .inr ordered.1.isUpgraded, front⟩
        · obtain ⟨word, messages, broken⟩ := ordered.1.breaks upgraded
          exact ⟨word, .inl messages, front.trans broken⟩
  · intro upgraded
    have whole := sound.whole (by rw [upgraded]; nofun)
    rw [whole, upgraded] at ordered
    exact ordered.1.isUpgraded

end EmbeddedHttp
