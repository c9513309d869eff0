/-
# EmbeddedHttp.Proofs.Message.Sessions -- a parser in use, from one reset to the next

A parser is fed pieces with a listener and is reset now and then (`Session.use`).  The log of
a session has every event that was told since the last reset, with what the listener made of
it, and every fault at which feeding stopped.  Two things hold of any session
(`Session.sound_useAll`): what was told is the front of what the pieces say, all of it while
the parser has not failed; and behind a refusal or a fault nothing is told any more, whatever
else is fed.
-/
import EmbeddedHttp.Proofs.Message.Cuts

namespace EmbeddedHttp

set_option autoImplicit false

/-! ## What is noted -/

/-- What is noted while a parser is in use. -/
inductive Note where
  /-- An event was told, and perhaps refused. -/
  | told (event : Event) (verdict : Option Refusal)
  /-- Feeding stopped at a fault. -/
  | stopped (fault : ParseError)
  deriving DecidableEq, Repr

namespace Note

/-- The event that was told. -/
def event? : Note → Option Event
  | .told event _ => some event
  | .stopped _ => none

/-- Was an event refused, or did feeding stop? -/
def isFinal : Note → Bool
  | .told _ verdict => verdict.isSome
  | .stopped _ => true

/-- Behind a final note nothing is told. -/
def Silences (earlier later : Note) : Prop :=
  earlier.isFinal = true → later.event? = none

end Note

/-- A listener that also notes what it is told and what it makes of it. -/
def noting {σ : Type} (listener : Listener σ) : Listener (σ × List Note) :=
  fun event state =>
    let heard := listener event state.1
    (heard.1, heard.2, state.2 ++ [.told event heard.1])

/-- What is noted of events that are told one after the other: a front of them, all accepted
but perhaps the last. -/
structure Noted (events : List Event) (refusal : Option Refusal) (notes : List Note) :
    Prop where
  front : notes.filterMap Note.event? <+: events
  accepted : refusal = none →
    notes.filterMap Note.event? = events ∧ ∀ note ∈ notes, note.isFinal = false
  silent : notes.Pairwise Note.Silences

theorem Noted.cons {event : Event} {events : List Event} {refusal : Option Refusal}
    {notes : List Note} (noted : Noted events refusal notes) :
    Noted (event :: events) refusal (.told event none :: notes) := by
  constructor
  · exact List.cons_prefix_cons.2 ⟨rfl, noted.front⟩
  · intro none
    obtain ⟨same, plain⟩ := noted.accepted none
    refine ⟨congrArg (event :: ·) same, ?_⟩
    exact List.forall_mem_cons.2 ⟨rfl, plain⟩
  · refine List.pairwise_cons.2 ⟨?_, noted.silent⟩
    rintro later - ⟨⟩

/-- Taking notes changes nothing but the notes. -/
theorem deliver_noting {σ : Type} (listener : Listener σ) (events : List Event) (state : σ)
    (log : List Note) :
    ∃ notes, deliver (noting listener) events (state, log) =
        ((deliver listener events state).1, (deliver listener events state).2, log ++ notes) ∧
      Noted events (deliver listener events state).1 notes := by
  induction events generalizing state log with
  | nil => exact ⟨[], by simp [deliver], List.prefix_rfl, fun _ => ⟨rfl, by simp⟩, .nil⟩
  | cons event rest ih =>
      rcases heard : listener event state with ⟨verdict, next⟩
      have first : noting listener event (state, log) =
          (verdict, next, log ++ [.told event verdict]) := by
        simp [noting, heard]
      cases verdict with
      | some refusal =>
          refine ⟨[.told event (some refusal)], by rw [deliver, deliver, first, heard], ?_⟩
          rw [deliver, heard]
          constructor
          · exact ⟨rest, rfl⟩
          · intro none
            cases none
          · exact List.pairwise_singleton _ _
      | none =>
          obtain ⟨notes, told, noted⟩ := ih next (log ++ [.told event none])
          rw [deliver, deliver, first, heard]
          refine ⟨.told event none :: notes, ?_, noted.cons⟩
          simp only [told, List.append_assoc, List.singleton_append]

/-! ## Sessions -/

/-- What may be done with a parser. -/
inductive Use where
  | feed (piece : Bytes)
  | reset
  deriving DecidableEq, Repr

/-- A parser in use with a listener: the pieces that it was fed since the last reset, and what
was noted of them. -/
structure Session (σ : Type) where
  parser : Parser
  state : σ
  pieces : List Bytes
  log : List Note

namespace Session

variable {σ : Type}

/-- Nothing was done. -/
def new (state : σ) : Session σ := ⟨.idle, state, [], []⟩

/-- The events told since the last reset. -/
def told (session : Session σ) : List Event := session.log.filterMap Note.event?

/-- The octets fed since the last reset. -/
def stream (session : Session σ) : Bytes := session.pieces.flatten

/-- The note of a fault. -/
def noteFault : Except ParseError Nat → List Note
  | .ok _ => []
  | .error fault => [.stopped fault]

/-- Do something with the parser. -/
def use (listener : Listener σ) (session : Session σ) : Use → Session σ
  | .feed piece =>
      let fed := session.parser.execute (noting listener) (session.state, session.log) piece
      ⟨fed.parser, fed.listener.1, session.pieces ++ [piece],
        fed.listener.2 ++ noteFault fed.result⟩
  | .reset => new session.state

/-- Do one thing after the other. -/
def useAll (listener : Listener σ) (uses : List Use) (session : Session σ) : Session σ :=
  uses.foldl (use listener) session

/-! ## What the pieces say -/

theorem runAll_append (first second : List Bytes) (parser : Parser) :
    Parser.runAll (first ++ second) parser =
      (Parser.runAll first parser).andThen (Parser.runAll second) := by
  induction first generalizing parser with
  | nil => simp [Parser.runAll]
  | cons piece rest ih =>
      rw [List.cons_append, Parser.runAll, Parser.runAll]
      obtain ⟨events, result⟩ := parser.run piece
      cases result with
      | error fault => rfl
      | ok next =>
          simp only [Parser.Reading.andThen_ok, ih]
          obtain ⟨more, outcome⟩ := Parser.runAll rest next
          cases outcome with
          | error fault => rfl
          | ok later => simp only [Parser.Reading.andThen_ok, List.append_assoc]

theorem runAll_concat (pieces : List Bytes) (piece : Bytes) (parser : Parser) :
    Parser.runAll (pieces ++ [piece]) parser =
      (Parser.runAll pieces parser).andThen (·.run piece) := by
  rw [runAll_append]
  congr 1
  funext next
  rw [Parser.runAll]
  obtain ⟨events, result⟩ := next.run piece
  cases result with
  | error fault => rfl
  | ok later => simp [Parser.runAll]

/-- More pieces say more. -/
theorem runAll_front (pieces : List Bytes) (piece : Bytes) (parser : Parser) :
    (Parser.runAll pieces parser).1 <+: (Parser.runAll (pieces ++ [piece]) parser).1 := by
  rw [runAll_concat]
  obtain ⟨events, result⟩ := Parser.runAll pieces parser
  cases result with
  | error fault => exact List.prefix_rfl
  | ok next => exact List.prefix_append _ _

/-- What holds of a parser in use. -/
structure Sound (session : Session σ) : Prop where
  /-- Nothing is told but what the pieces say. -/
  front : session.told <+: (Parser.runAll session.pieces .idle).1
  /-- Until it fails, the parser read all pieces and everything was told. -/
  whole : session.parser ≠ .failed →
    Parser.runAll session.pieces .idle = (session.told, .ok session.parser)
  /-- Until it fails, nothing was refused. -/
  accepted : session.parser ≠ .failed → ∀ note ∈ session.log, note.isFinal = false
  /-- Behind a refusal or a fault nothing is told. -/
  silent : session.log.Pairwise Note.Silences

theorem sound_new (state : σ) : (new state).Sound where
  front := List.nil_prefix
  whole _ := rfl
  accepted _ := nofun
  silent := .nil

/-- A parser that has failed says nothing, and stops at once if it is fed anything. -/
theorem execute_failed {τ : Type} (listener : Listener τ) (state : τ) (piece : Bytes) :
    Parser.failed.execute listener state piece =
      ⟨.failed, state, if piece = [] then .ok 0 else .error (.invalid .failedState)⟩ := by
  rw [Parser.execute_eq]
  cases piece with
  | nil => rw [Parser.run_nil]; rfl
  | cons b rest => rw [Parser.run_cons]; rfl

theorem pairwise_stopped {log : List Note} (silent : log.Pairwise Note.Silences)
    (result : Except ParseError Nat) : (log ++ noteFault result).Pairwise Note.Silences := by
  cases result with
  | ok taken => rwa [noteFault, List.append_nil]
  | error fault =>
      refine List.pairwise_append.2 ⟨silent, List.pairwise_singleton _ _, ?_⟩
      intro earlier _ later member _
      rw [List.mem_singleton.1 member]
      rfl

theorem filterMap_noteFault (log : List Note) (result : Except ParseError Nat) :
    (log ++ noteFault result).filterMap Note.event? = log.filterMap Note.event? := by
  cases result <;> simp [noteFault, Note.event?]

theorem Sound.feed {session : Session σ} (sound : session.Sound) (listener : Listener σ)
    (piece : Bytes) : (session.use listener (.feed piece)).Sound := by
  by_cases failed : session.parser = .failed
  · -- nothing comes of it but perhaps one more note of a fault
    have same : session.use listener (.feed piece) =
        ⟨.failed, session.state, session.pieces ++ [piece], session.log ++
          noteFault (if piece = [] then .ok 0 else .error (.invalid .failedState))⟩ := by
      unfold use
      simp only [failed, execute_failed]
    rw [same]
    refine ⟨?_, fun sound => absurd rfl sound, fun sound => absurd rfl sound,
      pairwise_stopped sound.silent _⟩
    unfold told
    rw [filterMap_noteFault]
    exact sound.front.trans (runAll_front _ _ _)
  · have before := sound.whole failed
    obtain ⟨notes, delivered, noted⟩ :=
      deliver_noting listener (session.parser.run piece).1 session.state session.log
    generalize deliver listener (session.parser.run piece).1 session.state = heard
      at delivered noted
    obtain ⟨refusal, heard⟩ := heard
    have silent : (session.log ++ notes).Pairwise Note.Silences := by
      refine List.pairwise_append.2 ⟨sound.silent, noted.silent, ?_⟩
      intro earlier member later _ final
      rw [sound.accepted failed earlier member] at final
      cases final
    have read : Parser.runAll (session.pieces ++ [piece]) .idle =
        (session.told ++ (session.parser.run piece).1, (session.parser.run piece).2) := by
      rw [runAll_concat, before, Parser.Reading.andThen_ok]
    have front : session.told ++ notes.filterMap Note.event? <+:
        (Parser.runAll (session.pieces ++ [piece]) .idle).1 := by
      rw [read]
      exact (List.prefix_append_right_inj _).2 noted.front
    unfold use
    simp only [Parser.execute_eq, Parser.tell, delivered]
    cases refusal with
    | some refusal =>
        refine ⟨?_, fun sound => absurd rfl sound, fun sound => absurd rfl sound,
          pairwise_stopped silent _⟩
        unfold told
        rw [filterMap_noteFault, List.filterMap_append]
        exact front
    | none =>
        obtain ⟨all, plain⟩ := noted.accepted rfl
        cases outcome : (session.parser.run piece).2 with
        | error fault =>
            refine ⟨?_, fun sound => absurd rfl sound, fun sound => absurd rfl sound,
              pairwise_stopped silent _⟩
            unfold told
            rw [filterMap_noteFault, List.filterMap_append]
            exact front
        | ok next =>
            refine ⟨?_, fun _ => ?_, fun _ note member => ?_, pairwise_stopped silent _⟩
            · unfold told
              rw [filterMap_noteFault, List.filterMap_append]
              exact front
            · show Parser.runAll (session.pieces ++ [piece]) .idle = _
              unfold told
              rw [read, outcome, filterMap_noteFault, List.filterMap_append, all]
              rfl
            · simp only [noteFault, List.append_nil] at member
              rcases List.mem_append.1 member with old | new
              · exact sound.accepted failed note old
              · exact plain note new

/-- **Nothing is told but the front of what the pieces say, and nothing behind a refusal or a
fault**, whatever is done with the parser. -/
theorem sound_useAll (listener : Listener σ) (uses : List Use) (state : σ) :
    (useAll listener uses (new state)).Sound := by
  suffices kept : ∀ session : Session σ, session.Sound → (useAll listener uses session).Sound from
    kept _ (sound_new state)
  induction uses with
  | nil => exact fun session sound => sound
  | cons first rest ih =>
      intro session sound
      refine ih _ ?_
      cases first with
      | feed piece => exact sound.feed listener piece
      | reset => exact sound_new session.state

end Session

end EmbeddedHttp
