/-
# EmbeddedHttp.Proofs.Request.InStep -- parser and queue stay in step

Between reads a parser is inside a message exactly when the last request of the queue
is still being received; every other request is ready (`Intake.InStep`).  Whatever is
fed keeps it so (`Intake.feed_inStep`).

Requests that were taken from the front of the queue do not matter to what is read
later: feeding a queue and feeding the rest of it build the same requests
(`Intake.feed_behind`), up to whether an interim answer is still owed.
-/
import EmbeddedHttp.Proofs.Message.Cuts
import EmbeddedHttp.Proofs.Request.Inner
import EmbeddedHttp.Request.Intake

namespace EmbeddedHttp

set_option autoImplicit false

/-! ## Feeding -/

namespace Intake

/-- One piece is read, and told up to the first refusal; the status of a fault is
recorded. -/
theorem feed_eq (limits : Limits) (intake : Intake) (data : Bytes) :
    intake.feed limits data =
      match deliver (Assembly.listener limits) (intake.parser.run data).1 intake.queue with
      | (some refusal, queue) =>
          ⟨⟨.failed, queue.recordFailure (ParseError.refused refusal).status⟩,
            .error (.refused refusal)⟩
      | (none, queue) =>
          match (intake.parser.run data).2 with
          | .error fault => ⟨⟨.failed, queue.recordFailure fault.status⟩, .error fault⟩
          | .ok parser => ⟨⟨parser, queue⟩, .ok data.length⟩ := by
  rw [feed, feedAll, Parser.executeAll, Parser.execute_eq, Parser.tell]
  obtain ⟨refusal, queue⟩ :=
    deliver (Assembly.listener limits) (intake.parser.run data).1 intake.queue
  cases refusal with
  | some refusal => rfl
  | none =>
      cases (intake.parser.run data).2 with
      | error fault => rfl
      | ok parser => simp [Parser.executeAll]

variable {limits : Limits}

/-- What holds behind a step of reading: `inside` of the parser and the queue, or, behind
a fault or a refusal, `stopped` of the queue. -/
def Outcome (inside : Parser → RequestQueue → Prop) (stopped : RequestQueue → Prop)
    (told : Option Refusal × RequestQueue) (result : Except ParseError (Parser × Nat)) : Prop :=
  match told.1, result with
  | none, .ok (next, _) => inside next told.2
  | _, _ => stopped told.2

/-- **What every step of reading keeps, feeding keeps.** -/
theorem feed_invariant (limits : Limits) (inside : Parser → RequestQueue → Prop)
    (stopped : RequestQueue → Prop)
    (step : ∀ (parser : Parser) (queue : RequestQueue) (b : UInt8) (rest : Bytes),
      inside parser queue →
      Outcome inside stopped (deliver (Assembly.listener limits) (parser.step b rest).1 queue)
        (parser.step b rest).2)
    {intake : Intake} (holds : inside intake.parser intake.queue) (data : Bytes) :
    (∃ n, (intake.feed limits data).result = .ok n ∧
        inside (intake.feed limits data).intake.parser (intake.feed limits data).intake.queue) ∨
      ∃ fault queue, (intake.feed limits data).result = .error fault ∧ stopped queue ∧
        (intake.feed limits data).intake = ⟨.failed, queue.recordFailure fault.status⟩ := by
  -- strong induction on what is left: a step inside a body takes many octets at once
  have settles : ∀ (n : Nat) (parser : Parser) (queue : RequestQueue) (data : Bytes),
      data.length = n → inside parser queue →
      Outcome inside stopped (deliver (Assembly.listener limits) (parser.run data).1 queue)
        ((parser.run data).2.map fun parser => (parser, 0)) := by
    intro n
    induction n using Nat.strongRecOn with
    | ind n ih =>
        intro parser queue data size holds
        cases data with
        | nil => simpa [deliver, Outcome, Except.map] using holds
        | cons b rest =>
            have kept := step parser queue b rest holds
            rw [Parser.run_cons]
            rcases stepped : parser.step b rest with ⟨events, result⟩
            rw [stepped] at kept
            cases result with
            | error fault =>
                rcases told : deliver (Assembly.listener limits) events queue with ⟨refusal, after⟩
                simp only [told] at kept
                simp only [Parser.afterStep, told, Except.map]
                cases refusal <;> exact kept
            | ok after =>
                obtain ⟨next, taken⟩ := after
                rcases told : deliver (Assembly.listener limits) events queue with ⟨refusal, later⟩
                simp only [told] at kept
                simp only [Parser.afterStep, Parser.deliver_append, told]
                cases refusal with
                | some refusal => exact kept
                | none =>
                    have shorter : (rest.drop taken).length < n := by
                      simp only [List.length_cons] at size
                      simp only [List.length_drop]
                      omega
                    exact ih _ shorter next later _ rfl kept
  have kept := settles _ intake.parser intake.queue data rfl holds
  rw [feed_eq]
  rcases told : deliver (Assembly.listener limits) (intake.parser.run data).1 intake.queue with
    ⟨refusal, queue⟩
  rw [told] at kept
  cases refusal with
  | some refusal => exact .inr ⟨_, queue, rfl, kept, rfl⟩
  | none =>
      cases result : (intake.parser.run data).2 with
      | error fault =>
          rw [result] at kept
          exact .inr ⟨_, queue, rfl, kept, rfl⟩
      | ok parser =>
          rw [result] at kept
          exact .inl ⟨_, rfl, kept⟩

/-! ## In step -/

/-- Every request can be answered. -/
def AllReady (queue : RequestQueue) : Prop := ∀ request ∈ queue.items, request.isReady = true

/-- Every request but the last can be answered. -/
def FrontReady (queue : RequestQueue) : Prop :=
  ∀ request ∈ queue.items.dropLast, request.isReady = true

/-- The last request is being received, and the others can be answered. -/
def LastOpen (queue : RequestQueue) : Prop :=
  ∃ (front : RequestQueue) (last : Request), queue = front.push last ∧ AllReady front ∧
    last.isReady = false

/-- Inside a message the last request is open, and otherwise none is. -/
def InStep (intake : Intake) : Prop :=
  match intake.parser with
  | .head _ _ | .body _ | .chunked _ => LastOpen intake.queue
  | .idle | .upgraded | .failed => AllReady intake.queue

theorem frontReady_push {front : RequestQueue} {last : Request} :
    FrontReady (front.push last) ↔ AllReady front := by
  simp [FrontReady, AllReady, RequestQueue.push]

theorem AllReady.frontReady {queue : RequestQueue} (all : AllReady queue) : FrontReady queue :=
  fun request member => all request (List.dropLast_subset _ member)

theorem AllReady.push {front : RequestQueue} (all : AllReady front) {last : Request}
    (ready : last.isReady = true) : AllReady (front.push last) := by
  intro request member
  simp only [RequestQueue.push, List.mem_append, List.mem_singleton] at member
  rcases member with inFront | rfl
  · exact all request inFront
  · exact ready

/-- A failure finishes the last request, or stands behind it. -/
theorem FrontReady.recordFailure {queue : RequestQueue} (front : FrontReady queue)
    (status : Status) : AllReady (queue.recordFailure status) := by
  rcases queue.empty_or_push with empty | ⟨before, last, rfl⟩
  · have alone : queue.recordFailure status = queue.push (Request.new.fail status) := by
      simp [RequestQueue.recordFailure, RequestQueue.inProgress?, empty]
    rw [alone]
    refine AllReady.push ?_ rfl
    intro request member
    rw [empty] at member
    cases member
  · rw [RequestQueue.recordFailure_push]
    have all := frontReady_push.1 front
    split
    · rename_i ready
      exact (all.push ready).push rfl
    · exact all.push rfl

/-! ## One step of reading -/

/-- What a step left is in step, or, behind a fault or a refusal, all but the last request
can be answered. -/
abbrev Kept (told : Option Refusal × RequestQueue) (result : Except ParseError (Parser × Nat)) :
    Prop :=
  Outcome (fun parser queue => InStep ⟨parser, queue⟩) FrontReady told result

/-- Events inside a message, behind which it goes on. -/
theorem kept_inner {front : RequestQueue} {last : Request} (all : AllReady front)
    (unready : last.isReady = false) {events : List Event}
    (inside : ∀ e ∈ events, e.isInner = true) {next : Parser} (taken : Nat)
    (goesOn : ∀ queue, LastOpen queue → InStep ⟨next, queue⟩) :
    Kept (deliver (Assembly.listener limits) events (front.push last)) (.ok (next, taken)) := by
  obtain ⟨refusal, changed, told, same⟩ :=
    Assembly.deliver_inner limits inside front last
  rw [told]
  cases refusal with
  | some refusal => exact frontReady_push.2 all
  | none => exact goesOn _ ⟨front, changed, rfl, all, by rw [same]; exact unready⟩

/-- Events inside a message, behind which it is at fault. -/
theorem kept_fault {front : RequestQueue} (last : Request) (all : AllReady front)
    {events : List Event} (inside : ∀ e ∈ events, e.isInner = true) (fault : ParseError) :
    Kept (deliver (Assembly.listener limits) events (front.push last)) (.error fault) := by
  obtain ⟨refusal, changed, told, -⟩ :=
    Assembly.deliver_inner limits inside front last
  rw [told]
  cases refusal <;> exact frontReady_push.2 all

/-- Events inside a message, and its end. -/
theorem kept_complete {front : RequestQueue} (last : Request) (all : AllReady front)
    {events : List Event} (inside : ∀ e ∈ events, e.isInner = true) {next : Parser} (taken : Nat)
    (ended : ∀ queue, AllReady queue → InStep ⟨next, queue⟩) :
    Kept (deliver (Assembly.listener limits) (events ++ [.complete]) (front.push last))
      (.ok (next, taken)) := by
  obtain ⟨refusal, changed, told, -⟩ :=
    Assembly.deliver_inner limits inside front last
  rw [Parser.deliver_append, told]
  cases refusal with
  | some refusal => exact frontReady_push.2 all
  | none =>
      simp only [deliver, Assembly.listener_complete]
      exact ended _ (all.push rfl)

theorem kept_headStep {queue : RequestQueue} (isOpen : LastOpen queue) (scan : Head.Scan)
    (size : Nat) (b : UInt8) :
    Kept (deliver (Assembly.listener limits) (Parser.headStep scan size b).1 queue)
      (Parser.headStep scan size b).2 := by
  obtain ⟨front, last, rfl, all, unready⟩ := isOpen
  have noEvents : ∀ e ∈ ([] : List Event), e.isInner = true := by simp
  simp only [Parser.headStep]
  cases scan.step b with
  | more next =>
      by_cases large : Head.maxSize ≤ size + 1
      · simp only [large, if_true]
        exact kept_fault last all noEvents _
      · simp only [large, if_false]
        exact kept_inner all unready noEvents _ fun _ stillOpen => stillOpen
  | malformed cause => exact kept_fault last all noEvents _
  | tooManyFields => exact kept_fault last all noEvents _
  | complete raw =>
      have inside : ∀ e ∈ raw.announce.1, e.isInner = true := fun e member =>
        Event.isInner_of_isOfHead (Parser.announce_ofHead raw e member)
      simp only [Parser.afterHead]
      cases raw.announce.2 with
      | error cause => exact kept_fault last all inside _
      | ok facts =>
          by_cases upgrade : facts.upgrade = true
          · simp only [upgrade, if_true]
            exact kept_complete last all inside _ fun _ ready => ready
          · simp only [upgrade, if_false, Bool.false_eq_true]
            cases facts.framing with
            | none => exact kept_complete last all inside _ fun _ ready => ready
            | chunked => exact kept_inner all unready inside _ fun _ stillOpen => stillOpen
            | length n =>
                cases n with
                | zero => exact kept_complete last all inside _ fun _ ready => ready
                | succ n => exact kept_inner all unready inside _ fun _ stillOpen => stillOpen

theorem kept_chunkStep {queue : RequestQueue} (isOpen : LastOpen queue) (place : Chunk.Place)
    (b : UInt8) :
    Kept (deliver (Assembly.listener limits) (Parser.chunkStep place b).1 queue)
      (Parser.chunkStep place b).2 := by
  obtain ⟨front, last, rfl, all, unready⟩ := isOpen
  have noEvents : ∀ e ∈ ([] : List Event), e.isInner = true := by simp
  simp only [Parser.chunkStep]
  cases place.step b with
  | next place => exact kept_inner all unready noEvents _ fun _ stillOpen => stillOpen
  | finished => exact kept_complete last all noEvents _ fun _ ready => ready
  | malformed cause => exact kept_fault last all noEvents _
  | tooLong => exact kept_fault last all noEvents _

/-- **One step of reading keeps parser and queue in step.** -/
theorem kept_step (limits : Limits) {parser : Parser} {queue : RequestQueue}
    (inStep : InStep ⟨parser, queue⟩)
    (b : UInt8) (rest : Bytes) :
    Kept (deliver (Assembly.listener limits) (parser.step b rest).1 queue)
      (parser.step b rest).2 := by
  cases parser with
  | failed => exact AllReady.frontReady inStep
  | idle =>
      by_cases gap : (b == Bytes.cr || b == Bytes.lf) = true
      · simp only [Parser.step, gap, if_true]
        exact inStep
      · have begun : LastOpen (queue.push Request.new) := ⟨queue, _, rfl, inStep, rfl⟩
        simp only [Parser.step, gap, if_false, Bool.false_eq_true]
        exact kept_headStep begun _ _ _
  | head scan size => exact kept_headStep inStep scan size b
  | body left =>
      obtain ⟨front, last, rfl, all, unready⟩ := inStep
      have inside : ∀ data : Bytes, ∀ e ∈ [Event.body data], e.isInner = true := by
        simp [Event.isInner]
      simp only [Parser.step]
      split
      · exact kept_complete last all (inside _) _ fun _ ready => ready
      · exact kept_inner all unready (inside _) _ fun _ stillOpen => stillOpen
  | chunked place =>
      cases place with
      | data left =>
          obtain ⟨front, last, rfl, all, unready⟩ := inStep
          simp only [Parser.step]
          exact kept_inner all unready (by simp [Event.isInner]) _ fun _ stillOpen => stillOpen
      | _ => exact kept_chunkStep inStep _ b
  | upgraded =>
      simp only [Parser.step]
      -- no request is left to hold what follows an upgrade once its own was taken
      rcases queue.empty_or_push with empty | ⟨front, last, rfl⟩
      · have refused : deliver (Assembly.listener limits) [.body (b :: rest)] queue =
            (some (.status .internalServerError), queue) := by
          simp [deliver, Assembly.listener, Assembly.changeLast, empty]
        rw [refused]
        exact AllReady.frontReady inStep
      · have inside : ∀ e ∈ [Event.body (b :: rest)], e.isInner = true := by simp [Event.isInner]
        obtain ⟨refusal, next, told, same⟩ :=
          Assembly.deliver_inner limits inside front last
        have all : AllReady front := frontReady_push.1 (AllReady.frontReady inStep)
        have ready : last.isReady = true := inStep last (by simp [RequestQueue.push])
        rw [told]
        cases refusal with
        | some refusal => exact frontReady_push.2 all
        | none => exact all.push (by rw [same]; exact ready)

/-- **Whatever is fed, parser and queue stay in step.** -/
theorem feed_inStep (limits : Limits) {intake : Intake} (inStep : intake.InStep) (data : Bytes) :
    (intake.feed limits data).intake.InStep := by
  have kept := feed_invariant limits (fun parser queue => InStep ⟨parser, queue⟩) FrontReady
    (fun _ _ b rest here => kept_step limits here b rest) inStep data
  rcases kept with ⟨_, -, inStep⟩ | ⟨fault, queue, -, front, same⟩
  · exact inStep
  · rw [same]
    exact front.recordFailure _

end Intake

end EmbeddedHttp
