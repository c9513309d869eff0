/-
# EmbeddedHttp.Proofs.Request.Tracking -- every request in step with its message

Every request of a queue matches how far its message was read (`RequestQueue.Paired`), and what
is told in order keeps it so (`Assembly.deliver_paired`).  Once reading stopped, this holds of
every request without an error.  `Intake.Tracks` says both of an intake from whose queue some
requests were taken, given how far the messages of the whole stream were read; reading,
closing, taking a request and telling the first one to go on all keep it.
-/
import EmbeddedHttp.Proofs.Request.Asking

namespace EmbeddedHttp

set_option autoImplicit false

/-! ## Queues -/

namespace RequestQueue

open Request (Matches SameHead)

variable {told : Prop} {queue front : RequestQueue} {request last : Request}
  {extents before : List Extent} {extent : Extent}

/-- Every request matches how far its message was read; only the first one may have been told
to go on. -/
structure Paired (told : Prop) (queue : RequestQueue) (extents : List Extent) : Prop where
  length : queue.items.length = extents.length
  pairs : ∀ (i : Nat) (request : Request) (extent : Extent), queue.items[i]? = some request →
    extents[i]? = some extent → request.Matches (i = 0 ∧ told) extent

/-- So does every request of which `p` holds. -/
def PairedWhere (p : Nat → Request → Prop) (told : Prop) (queue : RequestQueue)
    (extents : List Extent) : Prop :=
  ∀ (i : Nat) (request : Request), queue.items[i]? = some request → p i request →
    ∃ extent, extents[i]? = some extent ∧ request.Matches (i = 0 ∧ told) extent

/-- So does every request but perhaps the last, which is not ready then. -/
abbrev Halted (told : Prop) (queue : RequestQueue) (extents : List Extent) : Prop :=
  queue.PairedWhere (fun i request => i + 1 < queue.items.length ∨ request.isReady = true) told
    extents

theorem Paired.where (paired : queue.Paired told extents) (p : Nat → Request → Prop) :
    queue.PairedWhere p told extents := by
  intro i request found _
  have inside : i < extents.length := by
    rw [← paired.length]
    exact (List.getElem?_eq_some_iff.1 found).1
  exact ⟨extents[i], List.getElem?_eq_getElem inside,
    paired.pairs i request _ found (List.getElem?_eq_getElem inside)⟩

theorem Paired.push (paired : front.Paired told before)
    (pairs : request.Matches (front.items.length = 0 ∧ told) extent) :
    (front.push request).Paired told (before ++ [extent]) := by
  constructor
  · simp [RequestQueue.push, paired.length]
  · intro i other there found foundThere
    rcases getElem?_push_iff.1 found with inside | ⟨rfl, rfl⟩
    · have bound := (List.getElem?_eq_some_iff.1 inside).1
      rw [List.getElem?_append_left (by rw [← paired.length]; exact bound)] at foundThere
      exact paired.pairs i other there inside foundThere
    · rw [paired.length, List.getElem?_concat_length] at foundThere
      cases foundThere
      exact pairs

/-- The last request belongs to the message that began last. -/
theorem Paired.ends (paired : queue.Paired told (before ++ [extent])) :
    ∃ front last, queue = RequestQueue.push front last ∧ front.Paired told before ∧
      last.Matches (front.items.length = 0 ∧ told) extent := by
  rcases queue.empty_or_push with empty | ⟨front, last, rfl⟩
  · have length := paired.length
    rw [empty] at length
    simp at length
  · have length : front.items.length = before.length := by
      simpa [RequestQueue.push] using paired.length
    refine ⟨front, last, rfl, ⟨length, fun i other there found foundThere => ?_⟩, ?_⟩
    · have inside := (List.getElem?_eq_some_iff.1 found).1
      refine paired.pairs i other there (getElem?_push_iff.2 (.inl found)) ?_
      rw [List.getElem?_append_left (by rw [← length]; exact inside), foundThere]
    · refine paired.pairs front.items.length last extent (getElem?_push_iff.2 (.inr ⟨rfl, rfl⟩)) ?_
      rw [length, List.getElem?_concat_length]

/-- What is told after the last request refused something does not matter any more. -/
theorem halted_push (paired : front.Paired told before)
    (refused : last.isReady = true →
      last.Matches (front.items.length = 0 ∧ told) extent ∧ extent.body = true)
    (events : List Event) :
    (front.push last).Halted told (Extent.tellAll (before ++ [extent]) events) := by
  intro i request found isOpen
  rcases getElem?_push_iff.1 found with inside | ⟨rfl, rfl⟩
  · obtain ⟨there, foundThere, pairs⟩ := paired.where (fun _ _ => True) i request inside trivial
    have bound := (List.getElem?_eq_some_iff.1 foundThere).1
    obtain ⟨later, foundLater, -, same⟩ := Extent.tellAll_within events
      (show (before ++ [extent])[i]? = some there by
        rw [List.getElem?_append_left bound, foundThere])
    rw [same (by simp; omega)] at foundLater
    exact ⟨there, foundLater, pairs⟩
  · have ready : last.isReady = true := by
      refine isOpen.resolve_left ?_
      simp [RequestQueue.push]
    obtain ⟨pairs, body⟩ := refused ready
    obtain ⟨later, foundLater, within, -⟩ := Extent.tellAll_within events
      (show (before ++ [extent])[front.items.length]? = some extent by
        rw [paired.length, List.getElem?_concat_length])
    exact ⟨later, foundLater, pairs.later body within⟩

/-- Behind an error that was recorded, every request without one matches its message. -/
theorem Halted.recordFailure (halted : queue.Halted told extents) (status : Status) :
    (queue.recordFailure status).PairedWhere (fun _ request => request.failure = none) told
      extents := by
  have pushed : ∀ front : RequestQueue, front.PairedWhere (fun _ _ => True) told extents →
      ∀ last : Request, last.failure ≠ none →
      (front.push last).PairedWhere (fun _ request => request.failure = none) told extents := by
    intro front all last blamed i request found harmless
    rcases getElem?_push_iff.1 found with inside | ⟨-, rfl⟩
    · exact all i request inside trivial
    · exact absurd harmless blamed
  rcases queue.empty_or_push with empty | ⟨front, last, rfl⟩
  · have alone : queue.recordFailure status = queue.push (Request.new.fail status) := by
      simp [RequestQueue.recordFailure, RequestQueue.inProgress?, empty]
    rw [alone]
    refine pushed queue (fun i request found _ => ?_) _ (Option.some_ne_none status)
    rw [empty] at found
    cases found
  · have inFront : front.PairedWhere (fun _ _ => True) told extents := by
      intro i request found _
      have inside := (List.getElem?_eq_some_iff.1 found).1
      refine halted i request (getElem?_push_iff.2 (.inl found)) (.inl ?_)
      simp only [RequestQueue.push, List.length_append, List.length_singleton]
      omega
    rw [recordFailure_push]
    split
    · rename_i ready
      refine pushed _ (fun i request found _ => ?_) _ (Option.some_ne_none status)
      rcases getElem?_push_iff.1 found with inside | ⟨-, rfl⟩
      · exact inFront i request inside trivial
      · exact halted i last found (.inr ready)
    · exact pushed front inFront _ (Option.some_ne_none status)

/-- An error that is recorded changes no head. -/
theorem recordFailure_sameHead {i : Nat} (found : queue.items[i]? = some request)
    (status : Status) :
    ∃ later, (queue.recordFailure status).items[i]? = some later ∧ request.SameHead later := by
  rcases recordFailure_finds found status with same | ⟨-, failed⟩
  · exact ⟨request, same, .refl request⟩
  · exact ⟨request.fail status, failed, ⟨rfl, rfl⟩⟩

end RequestQueue

namespace Assembly

open Request (SameHead)
open RequestQueue (Paired Halted)

variable {told : Prop}

/-- **Events that are told in order keep every request in step with its message**, up to the
first that is refused; and what a head that was read said stays. -/
theorem deliver_paired (limits : Limits) {queue : RequestQueue} {extents : List Extent}
    (paired : queue.Paired told extents) {events : List Event}
    (inOrder : Event.InOrder extents events) :
    ((deliver (listener limits) events queue).1 = none →
        (deliver (listener limits) events queue).2.Paired told (Extent.tellAll extents events)) ∧
      ((deliver (listener limits) events queue).1 ≠ none →
        (deliver (listener limits) events queue).2.Halted told (Extent.tellAll extents events)) ∧
      ∀ (i : Nat) (request : Request) (extent : Extent), queue.items[i]? = some request →
        extents[i]? = some extent → extent.head = true →
        ∃ later, (deliver (listener limits) events queue).2.items[i]? = some later ∧
          request.SameHead later := by
  induction events generalizing queue extents with
  | nil =>
      exact ⟨fun _ => paired, fun refused => absurd rfl refused,
        fun i request _ found _ _ => ⟨request, found, .refl request⟩⟩
  | cons event rest ih =>
      obtain ⟨follows, further⟩ := inOrder
      by_cases begins : event = .begin
      · subst begins
        have begun : (queue.push Request.new).Paired told (extents ++ [.begun]) :=
          paired.push (Request.matches_new _)
        obtain ⟨accepted, refused, same⟩ := ih begun further
        rw [deliver, listener, Extent.tellAll_cons, Extent.tell_begin]
        refine ⟨accepted, refused, fun i request extent found there headRead => ?_⟩
        refine same i request extent (RequestQueue.getElem?_push_iff.2 (.inl found)) ?_ headRead
        rw [List.getElem?_append_left (List.getElem?_eq_some_iff.1 there).1, there]
      · obtain ⟨before, extent, rfl, -⟩ := follows.resolve_left begins
        obtain ⟨front, last, rfl, inFront, pairs⟩ := paired.ends
        obtain ⟨refusal, next, heard, turns⟩ :=
          listener_matches limits follows begins pairs front
        -- only the last request is changed, and not its head once that was read
        have changed : ∀ (i : Nat) (request : Request) (there : Extent),
            (front.push last).items[i]? = some request →
            (before ++ [extent])[i]? = some there → there.head = true →
            ∃ later after, (front.push next).items[i]? = some later ∧
              (before ++ [extent.after event])[i]? = some after ∧ after.head = true ∧
              request.SameHead later := by
          intro i request there found foundThere headRead
          rcases RequestQueue.getElem?_push_iff.1 found with inside | ⟨rfl, rfl⟩
          · have bound : i < before.length := by
              rw [← inFront.length]
              exact (List.getElem?_eq_some_iff.1 inside).1
            rw [List.getElem?_append_left bound] at foundThere
            refine ⟨request, there, RequestQueue.getElem?_push_iff.2 (.inl inside), ?_, headRead,
              .refl request⟩
            rw [List.getElem?_append_left bound, foundThere]
          · rw [inFront.length, List.getElem?_concat_length] at foundThere
            cases foundThere
            refine ⟨next, extent.after event, RequestQueue.getElem?_push_iff.2 (.inr ⟨rfl, rfl⟩), ?_,
              (Extent.within_after extent event).head headRead, turns.head headRead⟩
            rw [inFront.length, List.getElem?_concat_length]
        rw [deliver, heard, Extent.tellAll_cons]
        rw [Extent.tell_concat _ _ begins] at further ⊢
        cases refusal with
        | some refusal =>
            have halts := turns.refused (Option.some_ne_none refusal)
            refine ⟨fun none => (by cases none), fun _ => RequestQueue.halted_push inFront halts rest,
              fun i request there found foundThere headRead => ?_⟩
            obtain ⟨later, -, foundLater, -, -, same⟩ :=
              changed i request there found foundThere headRead
            exact ⟨later, foundLater, same⟩
        | none =>
            obtain ⟨accepted, refused, same⟩ := ih (inFront.push (turns.accepted rfl)) further
            refine ⟨accepted, refused, fun i request there found foundThere headRead => ?_⟩
            obtain ⟨between, after, foundBetween, foundAfter, stillRead, first⟩ :=
              changed i request there found foundThere headRead
            obtain ⟨later, foundLater, second⟩ :=
              same i between after foundBetween foundAfter stillRead
            exact ⟨later, foundLater, first.trans second⟩

end Assembly

/-! ## The stream -/

namespace Received

variable {heard : List Received} {received : Received}

theorem extents_quiet (none : received.octets = []) :
    extents (heard ++ [received]) = extents heard := by
  rw [extents, stream_append, none, List.append_nil, extents]

/-- Octets that are read are told behind what was told. -/
theorem extents_data {events : List Event} {parser : Parser}
    (read : Parser.idle.octets (stream heard) = (events, .ok parser)) (data : Bytes) :
    extents (heard ++ [.data data]) = Extent.tellAll (extents heard) (parser.run data).1 := by
  rw [extents, stream_append, Received.octets, Parser.octets_append_ok read, extents, read,
    Extent.tellAll_append, Parser.octets_eq_run, Extent.tellAll_split]

/-- Whatever more is heard, no message was read less far. -/
theorem extents_within (heard more : List Received) {i : Nat} {extent : Extent}
    (found : (extents heard)[i]? = some extent) :
    ∃ later, (extents (heard ++ more))[i]? = some later ∧ extent.Within later := by
  have longer : ∃ events, (Parser.idle.octets (stream (heard ++ more))).1 =
      (Parser.idle.octets (stream heard)).1 ++ events := by
    rw [stream, List.flatMap_append, Parser.octets_append, ← stream]
    rcases Parser.idle.octets (stream heard) with ⟨told, result⟩
    cases result with
    | error fault => exact ⟨[], (List.append_nil told).symm⟩
    | ok parser => exact ⟨_, rfl⟩
  obtain ⟨events, same⟩ := longer
  obtain ⟨later, foundLater, within, -⟩ := Extent.tellAll_within events found
  refine ⟨later, ?_, within⟩
  rw [extents, same, Extent.tellAll_append]
  exact foundLater

end Received

/-- A message that began earlier does not matter to where the parser is. -/
theorem Parser.Reached.tail {parser : Parser} {first : Extent} {rest : List Extent}
    (reached : parser.Reached (first :: rest)) (more : rest ≠ []) : parser.Reached rest := by
  obtain ⟨between, last, rfl⟩ := List.eq_nil_or_concat rest |>.resolve_left more
  rw [List.concat_eq_append, ← List.cons_append] at reached
  have ends : ∀ {before : List Extent} {final : Extent},
      (first :: between) ++ [last] = before ++ [final] → last = final := by
    intro before final same
    exact (List.cons.inj (List.append_inj' same rfl).2).1
  rw [List.concat_eq_append]
  cases parser with
  | idle | failed => trivial
  | head scan size =>
      obtain ⟨before, same⟩ := reached
      exact ⟨between, by rw [ends same]⟩
  | body _ | chunked _ | upgraded =>
      obtain ⟨before, final, same, headRead⟩ := reached
      exact ⟨between, last, rfl, by rw [ends same]; exact headRead⟩

/-! ## Intakes -/

namespace Intake

open Request (SameHead)

variable {told other : Prop} {taken : Nat} {extents : List Extent} {intake : Intake}
  {closed : Bool} {request : Request} {rest : List Request}

/-- Behind `taken` requests that were taken, every request without an error matches its message;
and while more is read every request does, and the parser is where the last message was read
to. -/
structure Tracks (told : Prop) (taken : Nat) (extents : List Extent) (intake : Intake)
    (closed : Bool) : Prop where
  known : intake.queue.PairedWhere (fun _ request => request.failure = none) told
    (extents.drop taken)
  reading : closed = false → taken ≤ extents.length ∧
    intake.queue.Paired told (extents.drop taken) ∧ intake.parser.Reached (extents.drop taken)

theorem tracks_opened : Tracks False 0 [] Intake.empty false where
  known := fun i request found => by cases found
  reading _ := ⟨Nat.le_refl 0, ⟨rfl, fun i request extent found => by cases found⟩, trivial⟩

namespace Tracks

theorem of_paired (within : taken ≤ extents.length)
    (paired : intake.queue.Paired told (extents.drop taken))
    (reached : intake.parser.Reached (extents.drop taken)) :
    Tracks told taken extents intake closed :=
  ⟨paired.where _, fun _ => ⟨within, paired, reached⟩⟩

theorem close (tracks : Tracks told taken extents intake closed) :
    Tracks told taken extents intake true :=
  ⟨tracks.known, fun isOpen => by cases isOpen⟩

theorem mono (tracks : Tracks told taken extents intake closed) (implies : told → other) :
    Tracks other taken extents intake closed where
  known i request found harmless := by
    obtain ⟨extent, there, pairs⟩ := tracks.known i request found harmless
    exact ⟨extent, there, pairs.mono (And.imp_right implies)⟩
  reading isOpen := by
    obtain ⟨within, paired, reached⟩ := tracks.reading isOpen
    exact ⟨within, ⟨paired.length, fun i request extent found there =>
      (paired.pairs i request extent found there).mono (And.imp_right implies)⟩, reached⟩

/-- The first request, if it carries no error, matches the message behind those whose requests
were taken. -/
theorem first (tracks : Tracks told taken extents intake closed)
    (items : intake.queue.items = request :: rest) (harmless : request.failure = none) :
    ∃ extent, extents[taken]? = some extent ∧ request.Matches told extent := by
  obtain ⟨extent, there, pairs⟩ := tracks.known 0 request (by rw [items]; rfl) harmless
  rw [List.getElem?_drop, Nat.add_zero] at there
  exact ⟨extent, there, pairs.mono And.right⟩

/-- While more is read no request carries an error. -/
theorem harmless (tracks : Tracks told taken extents intake false)
    (items : intake.queue.items = request :: rest) : request.failure = none := by
  obtain ⟨-, paired, -⟩ := tracks.reading rfl
  have found : intake.queue.items[0]? = some request := by rw [items]; rfl
  obtain ⟨extent, -, pairs⟩ := paired.where (fun _ _ => True) 0 request found trivial
  exact pairs.sound

/-- While more is read, without a request there is no message either. -/
theorem empty (tracks : Tracks told taken extents intake false) (items : intake.queue.items = []) :
    extents[taken]? = none := by
  obtain ⟨-, paired, -⟩ := tracks.reading rfl
  have length := paired.length
  rw [items, List.length_drop] at length
  exact List.getElem?_eq_none (by simp at length; omega)

/-- The first request is taken. -/
theorem take (tracks : Tracks told taken extents intake closed)
    (items : intake.queue.items = request :: rest) (ready : request.isReady = true)
    (inStep : closed = false → intake.InStep ∧ intake.parser ≠ .upgraded) :
    Tracks False (taken + 1) extents ⟨intake.parser, ⟨rest⟩⟩ closed := by
  have shift : ∀ i : Nat, (extents.drop (taken + 1))[i]? = (extents.drop taken)[i + 1]? := by
    intro i
    rw [List.getElem?_drop, List.getElem?_drop, Nat.add_assoc, Nat.add_comm 1 i]
  have behind : ∀ i : Nat, intake.queue.items[i + 1]? = rest[i]? := by
    intro i
    rw [items, List.getElem?_cons_succ]
  refine ⟨fun i other found harmless => ?_, fun isOpen => ?_⟩
  · obtain ⟨extent, there, pairs⟩ :=
      tracks.known (i + 1) other ((behind i).trans found) harmless
    exact ⟨extent, (shift i).trans there, pairs.mono fun first => absurd first.1 (by omega)⟩
  · obtain ⟨within, paired, reached⟩ := tracks.reading isOpen
    obtain ⟨inStep, plain⟩ := inStep isOpen
    have length : rest.length + 1 = extents.length - taken := by
      have length := paired.length
      rw [items, List.length_cons, List.length_drop] at length
      exact length
    refine ⟨by omega, ⟨?_, fun i other extent found there => ?_⟩, ?_⟩
    · rw [List.length_drop]
      show rest.length = _
      omega
    · refine (paired.pairs (i + 1) other extent ((behind i).trans found) ?_).mono
        fun first => absurd first.1 (by omega)
      rw [← shift i]
      exact there
    · -- inside a message its request is not ready, so it is still there
      have inside : Intake.LastOpen ⟨rest⟩ → intake.parser.Reached (extents.drop (taken + 1)) := by
        rintro ⟨front, last, same, -⟩
        have some : rest ≠ [] := by
          have items : rest = front.items ++ [last] := congrArg RequestQueue.items same
          simp [items]
        have more : taken < extents.length := by omega
        rw [List.drop_eq_getElem_cons more] at reached
        refine reached.tail fun none => some ?_
        rw [List.drop_eq_nil_iff] at none
        exact List.length_eq_zero_iff.1 (by omega)
      have tail := inStep.tail items ready
      rw [InStep] at tail
      show intake.parser.Reached (extents.drop (taken + 1))
      cases parser : intake.parser with
      | idle | failed => trivial
      | upgraded => exact absurd parser plain
      | head _ _ | body _ | chunked _ =>
          rw [parser] at tail inside
          exact inside tail

/-- The first request was told to go on. -/
theorem settleFirst (tracks : Tracks told taken extents intake closed)
    (items : intake.queue.items = request :: rest) :
    Tracks True taken extents ⟨intake.parser, ⟨request.settled :: rest⟩⟩ closed := by
  have settled : ∀ {i : Nat} {other : Request}, (request.settled :: rest)[i]? = some other →
      ∃ before, intake.queue.items[i]? = some before ∧ other.failure = before.failure ∧
        ∀ extent, before.Matches (i = 0 ∧ told) extent → other.Matches (i = 0 ∧ True) extent := by
    intro i other found
    rw [items]
    cases i with
    | zero =>
        cases found
        exact ⟨request, rfl, rfl, fun extent pairs => pairs.settled.mono fun _ => ⟨rfl, trivial⟩⟩
    | succ i =>
        exact ⟨other, found, rfl, fun extent pairs => pairs.mono fun first => absurd first.1 (by omega)⟩
  refine ⟨fun i other found harmless => ?_, fun isOpen => ?_⟩
  · obtain ⟨before, was, failure, matched⟩ := settled found
    obtain ⟨extent, there, pairs⟩ := tracks.known i before was (failure.symm.trans harmless)
    exact ⟨extent, there, matched extent pairs⟩
  · obtain ⟨within, paired, reached⟩ := tracks.reading isOpen
    refine ⟨within, ⟨?_, fun i other extent found there => ?_⟩, reached⟩
    · rw [← paired.length, items]
      rfl
    · obtain ⟨before, was, -, matched⟩ := settled found
      exact matched extent (paired.pairs i before extent was there)

/-- An error is recorded and no more is read. -/
theorem recordFailure (tracks : Tracks told taken extents intake false) (status : Status) :
    Tracks told taken extents ⟨intake.parser, intake.queue.recordFailure status⟩ true := by
  obtain ⟨-, paired, -⟩ := tracks.reading rfl
  have halted : intake.queue.Halted told (extents.drop taken) := paired.where _
  exact ⟨halted.recordFailure status, fun isOpen => by cases isOpen⟩

/-- **Octets are read.** -/
theorem feed (limits : Limits) (tracks : Tracks told taken extents intake false) (data : Bytes)
    (stopped : Bool)
    (stops : ∀ fault, (intake.feed limits data).result = .error fault → stopped = true) :
    Tracks told taken (Extent.tellAll extents (intake.parser.run data).1)
      (intake.feed limits data).intake stopped := by
  obtain ⟨within, paired, reached⟩ := tracks.reading rfl
  obtain ⟨inOrder, leads⟩ := Parser.run_inOrder reached data
  obtain ⟨accepted, refused, -⟩ := Assembly.deliver_paired limits paired inOrder
  have same := inOrder.behind (extents.take taken)
  rw [List.take_append_drop] at same
  have size : (extents.take taken).length = taken := List.length_take_of_le within
  have dropped : (Extent.tellAll extents (intake.parser.run data).1).drop taken =
      Extent.tellAll (extents.drop taken) (intake.parser.run data).1 := by
    rw [same, List.drop_append_of_le_length (by omega), List.drop_eq_nil_of_le (by omega),
      List.nil_append]
  -- behind a fault or a refusal the error is recorded, and no more is read
  have stopsHere : ∀ {fault : ParseError} {queue : RequestQueue},
      stopped = true → queue.Halted told (Extent.tellAll (extents.drop taken)
        (intake.parser.run data).1) →
      Tracks told taken (Extent.tellAll extents (intake.parser.run data).1)
        ⟨.failed, queue.recordFailure fault.status⟩ stopped := by
    intro fault queue isStopped halted
    rw [← dropped] at halted
    exact ⟨halted.recordFailure _, fun isOpen => by rw [isStopped] at isOpen; cases isOpen⟩
  rw [feed_eq] at stops ⊢
  rcases heard : deliver (Assembly.listener limits) (intake.parser.run data).1 intake.queue with
    ⟨refusal, queue⟩
  rw [heard] at accepted refused stops
  cases refusal with
  | some refusal => exact stopsHere (stops _ rfl) (refused (Option.some_ne_none refusal))
  | none =>
      cases outcome : (intake.parser.run data).2 with
      | error fault =>
          rw [outcome] at stops
          exact stopsHere (stops _ rfl) ((accepted rfl).where _)
      | ok parser =>
          refine .of_paired ?_ ?_ ?_
          · rw [same, List.length_append]
            omega
          · rw [dropped]
            exact accepted rfl
          · rw [dropped]
            exact leads parser outcome

/-- **What a head that was read said does not change.** -/
theorem feed_sameHead (limits : Limits) (tracks : Tracks told taken extents intake false)
    (items : intake.queue.items = request :: rest) {extent : Extent}
    (there : extents[taken]? = some extent) (headRead : extent.head = true) (data : Bytes) :
    ∃ later others, (intake.feed limits data).intake.queue.items = later :: others ∧
      request.SameHead later := by
  obtain ⟨within, paired, reached⟩ := tracks.reading rfl
  obtain ⟨inOrder, -⟩ := Parser.run_inOrder reached data
  obtain ⟨-, -, same⟩ := Assembly.deliver_paired limits paired inOrder
  have first : (extents.drop taken)[0]? = some extent := by
    rw [List.getElem?_drop, Nat.add_zero]
    exact there
  obtain ⟨later, found, sameHead⟩ := same 0 request extent (by rw [items]; rfl) first headRead
  have atFront : ∀ {queue : RequestQueue} {request : Request}, queue.items[0]? = some request →
      ∃ others, queue.items = request :: others := by
    rintro ⟨_ | ⟨head, others⟩⟩ request found
    · cases found
    · cases found
      exact ⟨others, rfl⟩
  have recorded : ∀ status : Status, ∃ later others,
      ((deliver (Assembly.listener limits) (intake.parser.run data).1
        intake.queue).2.recordFailure status).items = later :: others ∧
          request.SameHead later := by
    intro status
    obtain ⟨after, foundAfter, still⟩ := RequestQueue.recordFailure_sameHead found status
    obtain ⟨others, items⟩ := atFront foundAfter
    exact ⟨after, others, items, sameHead.trans still⟩
  rw [feed_eq]
  rcases heard : deliver (Assembly.listener limits) (intake.parser.run data).1 intake.queue with
    ⟨refusal, queue⟩
  rw [heard] at found recorded
  cases refusal with
  | some refusal => exact recorded _
  | none =>
      cases (intake.parser.run data).2 with
      | error fault => exact recorded _
      | ok parser =>
          obtain ⟨others, items⟩ := atFront found
          exact ⟨later, others, items, sameHead⟩

end Tracks

end Intake

end EmbeddedHttp
