/-
# EmbeddedHttp.Proofs.Message.Cuts -- how a stream is cut does not matter

A socket delivers a stream in pieces that say nothing about the messages in it.
`Parser.runAll` reads the pieces in order without a listener, and feeding them with
one is telling what `runAll` found (`executeAll_eq`).  Octet by octet the pieces
are one stream (`octets_flatten`), so two ways of cutting it lead to the same
parser, or to the same fault, and to the same events once adjacent pieces of body
are joined (`executeAll_cut_invariant`).
-/
import EmbeddedHttp.Proofs.Message.Octets

namespace EmbeddedHttp

set_option autoImplicit false

/-! ## Joining pieces of body -/

namespace Event

/-- The events, adjacent pieces of body joined into one. -/
def join : List Event → List Event
  | [] => []
  | .body data :: rest =>
      match join rest with
      | .body more :: others => .body (data ++ more) :: others
      | others => .body data :: others
  | event :: rest => event :: join rest

/-- A piece in front of what is joined already. -/
def joinFront (data : Bytes) : List Event → List Event
  | .body more :: others => .body (data ++ more) :: others
  | others => .body data :: others

theorem join_body (data : Bytes) (rest : List Event) :
    join (.body data :: rest) = joinFront data (join rest) := by
  rw [join]
  cases join rest with
  | nil => rfl
  | cons event others => cases event <;> rfl

theorem joinFront_joinFront (first second : Bytes) (events : List Event) :
    joinFront first (joinFront second events) = joinFront (first ++ second) events := by
  cases events with
  | nil => rfl
  | cons event others => cases event <;> simp [joinFront]

theorem join_pieces (b : UInt8) (data : Bytes) (rest : List Event) :
    join (pieces (b :: data) ++ rest) = joinFront (b :: data) (join rest) := by
  induction data generalizing b with
  | nil => simp [join_body]
  | cons c more ih =>
      rw [pieces_cons, List.cons_append, join_body, ih, joinFront_joinFront, List.singleton_append]

/-- Cutting pieces of body and joining them again changes nothing, as long as none is
empty. -/
theorem join_split {events : List Event} (proper : ∀ e ∈ events, e ≠ .body []) :
    join (split events) = join events := by
  induction events with
  | nil => rfl
  | cons event rest ih =>
      have others := ih fun e member => proper e (List.mem_cons_of_mem _ member)
      have first := proper event List.mem_cons_self
      rw [split_cons]
      cases event with
      | body data =>
          cases data with
          | nil => exact absurd rfl first
          | cons b more => rw [octets, join_pieces, others, join_body]
      | _ => simp only [octets, List.singleton_append, join, others]

end Event

namespace Parser

/-! ## No piece of body is empty -/

theorem proper_of_noBody {events : List Event} (noBody : ∀ e ∈ events, e.isBody = false) :
    ∀ e ∈ events, e ≠ .body [] := by
  intro e member same
  have := noBody e member
  rw [same] at this
  simp [Event.isBody] at this

theorem step_proper (parser : Parser) (b : UInt8) (rest : Bytes) :
    ∀ e ∈ (parser.step b rest).1, e ≠ .body [] := by
  by_cases plain : parser.isPlain = true
  · obtain ⟨alone, noBody, -⟩ := step_of_plain plain b rest
    rw [alone]
    exact proper_of_noBody noBody
  · intro e member
    cases parser with
    | body left =>
        simp only [step] at member
        split at member <;> simp only [List.mem_cons, List.not_mem_nil, or_false] at member
        · rcases member with rfl | rfl <;> simp
        · subst member; simp
    | chunked place =>
        cases place with
        | data left =>
            simp only [step, List.mem_singleton] at member
            subst member
            simp
        | _ => exact absurd rfl plain
    | upgraded =>
        simp only [step, List.mem_singleton] at member
        subst member
        simp
    | _ => exact absurd rfl plain

theorem run_proper (parser : Parser) (data : Bytes) :
    ∀ e ∈ (parser.run data).1, e ≠ .body [] := by
  induction size : data.length using Nat.strongRecOn generalizing parser data with
  | ind n ih =>
      cases data with
      | nil => simp
      | cons b rest =>
          have first := step_proper parser b rest
          rw [run_cons]
          cases stepped : parser.step b rest with
          | mk events result =>
            rw [stepped] at first
            cases result with
            | error fault => exact first
            | ok after =>
                obtain ⟨next, taken⟩ := after
                have shorter : (rest.drop taken).length < n := by
                  simp only [List.length_cons] at size
                  simp only [List.length_drop]
                  omega
                intro e member
                simp only [afterStep, List.mem_append] at member
                rcases member with here | later
                · exact first e here
                · exact ih _ shorter next _ rfl e later

/-! ## Pieces in order -/

/-- Read the pieces in order, up to the first fault. -/
def runAll : List Bytes → Parser → Reading
  | [], parser => ([], .ok parser)
  | piece :: rest, parser => Reading.andThen (parser.run piece) (runAll rest)

theorem runAll_proper (pieces : List Bytes) (parser : Parser) :
    ∀ e ∈ (runAll pieces parser).1, e ≠ .body [] := by
  induction pieces generalizing parser with
  | nil => simp [runAll]
  | cons piece rest ih =>
      have first := run_proper parser piece
      rw [runAll]
      generalize parser.run piece = read at first ⊢
      obtain ⟨events, result⟩ := read
      intro e member
      cases result with
      | error fault => exact first e member
      | ok next =>
          rw [Reading.andThen_ok] at member
          rcases List.mem_append.1 member with here | later
          · exact first e here
          · exact ih next e later

/-- **Octet by octet, the pieces are the stream that they were cut from.** -/
theorem octets_flatten (pieces : List Bytes) (parser : Parser) :
    parser.octets pieces.flatten =
      (Event.split (runAll pieces parser).1, (runAll pieces parser).2) := by
  induction pieces generalizing parser with
  | nil => rfl
  | cons piece rest ih =>
      rw [List.flatten_cons, octets_append, octets_eq_run, runAll]
      obtain ⟨events, result⟩ := parser.run piece
      cases result with
      | error fault => rfl
      | ok next => simp only [Reading.andThen_ok, ih, Event.split_append]

/-! ## Telling a listener -/

theorem deliver_append {σ : Type} (listener : Listener σ) (first second : List Event) (state : σ) :
    deliver listener (first ++ second) state =
      match deliver listener first state with
      | (some refusal, state) => (some refusal, state)
      | (none, state) => deliver listener second state := by
  induction first generalizing state with
  | nil => rfl
  | cons event rest ih =>
      simp only [List.cons_append, deliver]
      obtain ⟨refusal, next⟩ := listener event state
      cases refusal with
      | some refusal => rfl
      | none => exact ih next

/-- Events that are all accepted were accepted one after the other. -/
theorem deliver_cons_ok {σ : Type} {listener : Listener σ} {event : Event} {rest : List Event}
    {state after : σ} (accepted : deliver listener (event :: rest) state = (none, after)) :
    ∃ between, listener event state = (none, between) ∧
      deliver listener rest between = (none, after) := by
  rw [deliver] at accepted
  rcases heard : listener event state with ⟨refusal, between⟩
  rw [heard] at accepted
  cases refusal with
  | some refusal => cases accepted
  | none => exact ⟨between, rfl, accepted⟩

theorem deliver_append_ok {σ : Type} {listener : Listener σ} {first second : List Event}
    {state after : σ} (accepted : deliver listener (first ++ second) state = (none, after)) :
    ∃ between, deliver listener first state = (none, between) ∧
      deliver listener second between = (none, after) := by
  rw [deliver_append] at accepted
  rcases heard : deliver listener first state with ⟨refusal, between⟩
  rw [heard] at accepted
  cases refusal with
  | some refusal => cases accepted
  | none => exact ⟨between, rfl, accepted⟩

/-- Tell a listener what reading `taken` octets found. -/
def tell {σ : Type} (listener : Listener σ) (reading : Reading) (taken : Nat) (state : σ) :
    Execution σ :=
  match deliver listener reading.1 state with
  | (some refusal, state) => ⟨.failed, state, .error (.refused refusal)⟩
  | (none, state) =>
      match reading.2 with
      | .error fault => ⟨.failed, state, .error fault⟩
      | .ok parser => ⟨parser, state, .ok taken⟩

theorem execute_eq {σ : Type} (parser : Parser) (listener : Listener σ) (state : σ)
    (data : Bytes) :
    parser.execute listener state data = tell listener (parser.run data) data.length state := rfl

/-- **Feeding pieces with a listener is telling it what the pieces hold.** -/
theorem executeAll_eq {σ : Type} (listener : Listener σ) (pieces : List Bytes) (taken : Nat)
    (parser : Parser) (state : σ) :
    executeAll listener pieces taken parser state =
      tell listener (runAll pieces parser) (taken + pieces.flatten.length) state := by
  induction pieces generalizing taken parser state with
  | nil => rfl
  | cons piece rest ih =>
      rw [executeAll, execute_eq, runAll]
      obtain ⟨events, result⟩ := parser.run piece
      cases result with
      -- a refusal of the listener comes before the fault at the end of the piece
      | error fault =>
          simp only [tell, Reading.andThen_error]
          obtain ⟨refusal, heard⟩ := deliver listener events state
          cases refusal <;> rfl
      | ok next =>
          simp only [tell, Reading.andThen_ok, deliver_append]
          obtain ⟨refusal, heard⟩ := deliver listener events state
          cases refusal with
          | some refusal => rfl
          | none =>
              simp only [ih, tell, List.flatten_cons, List.length_append, Nat.add_assoc]

/-- A listener that also keeps what it hears, last first. -/
def keeping {σ : Type} (listener : Listener σ) : Listener (σ × List Event) :=
  fun event state =>
    let heard := listener event state.1
    (heard.1, heard.2, event :: state.2)

theorem deliver_keeping {σ : Type} {listener : Listener σ}
    (accepts : ∀ event state, (listener event state).1 = none) (events : List Event)
    (state : σ) (kept : List Event) :
    ∃ heard, deliver (keeping listener) events (state, kept) =
      (none, heard, events.reverse ++ kept) := by
  induction events generalizing state kept with
  | nil => exact ⟨state, rfl⟩
  | cons event rest ih =>
      obtain ⟨heard, told⟩ := ih (listener event state).2 (event :: kept)
      have first : keeping listener event (state, kept) =
          (none, (listener event state).2, event :: kept) := by
        simp only [keeping, accepts]
      refine ⟨heard, ?_⟩
      rw [deliver, first]
      simp only [told, List.reverse_cons, List.append_assoc, List.singleton_append]

/-- **How a stream is cut into pieces does not matter.**  With a listener that accepts
every event, two ways of cutting one stream leave the same parser -- which is all that
any continuation depends on -- or fail with the same fault, and the events told are the
same once adjacent pieces of body are joined. -/
theorem executeAll_cut_invariant {σ : Type} (listener : Listener σ)
    (accepts : ∀ event state, (listener event state).1 = none) (parser : Parser) (state : σ)
    {first second : List Bytes} (same : first.flatten = second.flatten) :
    let one := executeAll (keeping listener) first 0 parser (state, [])
    let other := executeAll (keeping listener) second 0 parser (state, [])
    one.parser = other.parser ∧ one.result = other.result ∧
      Event.join one.listener.2.reverse = Event.join other.listener.2.reverse := by
  have read := octets_flatten first parser
  rw [same, octets_flatten second parser, Prod.mk.injEq] at read
  obtain ⟨events, result⟩ := read
  -- octet by octet both are told the same, and joining forgets how bodies were cut
  have joined : Event.join (runAll first parser).1 = Event.join (runAll second parser).1 := by
    rw [← Event.join_split (runAll_proper first parser), ← events,
      Event.join_split (runAll_proper second parser)]
  obtain ⟨heard, told⟩ := deliver_keeping accepts (runAll first parser).1 state []
  obtain ⟨heard', told'⟩ := deliver_keeping accepts (runAll second parser).1 state []
  simp only [executeAll_eq, tell, told, told', result, same]
  cases (runAll first parser).2 with
  | error fault => exact ⟨rfl, rfl, by simpa using joined⟩
  | ok next => exact ⟨rfl, rfl, by simpa using joined⟩

/-- A message with a body in chunks, whole and cut after every fourth octet: inside its
head, a chunk size and the data. -/
theorem chunked_message_cut :
    let listener : Listener Unit := fun _ state => (none, state)
    let whole := Bytes.ofAscii
      "PUT /a HTTP/1.1\r\nTransfer-Encoding: chunked\r\n\r\n00b\r\nhello world\r\n0\r\n\r\n"
    let one := executeAll (keeping listener) [whole] 0 .idle ((), [])
    let other := executeAll (keeping listener) (Bytes.cutEvery 4 whole) 0 .idle ((), [])
    [whole].flatten = (Bytes.cutEvery 4 whole).flatten ∧
      one.parser = other.parser ∧ one.result = other.result ∧
        Event.join one.listener.2.reverse = Event.join other.listener.2.reverse :=
  ⟨by decide +kernel,
    executeAll_cut_invariant _ (fun _ _ => rfl) .idle () (by decide +kernel)⟩

end Parser

end EmbeddedHttp
