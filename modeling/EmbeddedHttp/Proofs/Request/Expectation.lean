/-
# EmbeddedHttp.Proofs.Request.Expectation -- who still waits for an interim answer

Only a complete head asks for an interim answer.  So a request whose head is being read
has not asked yet (`Intake.HeadFresh`), and a first request that was told to go on does
not ask again (`Intake.FirstTold`).  Whatever is fed keeps both.
-/
import EmbeddedHttp.Proofs.Request.Arrivals

namespace EmbeddedHttp

set_option autoImplicit false

/-! ## Events behind a head -/

/-- Does the event come behind the head of its message? -/
def Event.isBehindHead : Event → Bool
  | .body _ | .complete => true
  | _ => false

namespace Parser

/-- Is a head being read? -/
def inHead : Parser → Bool
  | .head _ _ => true
  | _ => false

/-- A step that leaves the parser in a head tells at most that a message begins. -/
theorem step_inHead {parser next : Parser} {b : UInt8} {rest : Bytes} {events : List Event}
    {taken : Nat} (stepped : parser.step b rest = (events, .ok (next, taken)))
    (inside : next.inHead = true) :
    events = [.begin] ∨ events = [] ∧ parser.inHead = true := by
  -- an octet that ends a head leaves the parser outside of one, and is ruled out
  have ofHead : ∀ {scan : Head.Scan} {size : Nat} {told : List Event},
      headStep scan size b = (told, .ok (next, taken)) → told = [] := by
    intro scan size told same
    rw [headStep] at same
    split at same
    · split at same <;> cases same
      rfl
    · rename_i raw
      simp only [afterHead] at same
      split at same
      · cases same
      · split at same
        · cases same
          cases inside
        · split at same <;> · cases same
                              cases inside
    · cases same
    · cases same
  cases parser with
  | failed => cases stepped
  | idle =>
      rw [step] at stepped
      split at stepped
      · cases stepped
        cases inside
      · rcases first : headStep Head.Scan.start 0 b with ⟨told, result⟩
        rw [first] at stepped
        cases stepped
        rw [ofHead first]
        exact .inl rfl
  | head scan size => exact .inr ⟨ofHead stepped, rfl⟩
  | body left =>
      simp only [step] at stepped
      split at stepped <;> · cases stepped
                             cases inside
  | chunked place =>
      cases place with
      | data left =>
          cases stepped
          cases inside
      | _ =>
          simp only [step, chunkStep] at stepped
          split at stepped <;> · cases stepped
                                 try cases inside
  | upgraded =>
      cases stepped
      cases inside

/-- Outside a head, a step tells that a message begins, or only what comes behind a head. -/
theorem step_outsideHead {parser : Parser} (outside : parser.inHead = false) (b : UInt8)
    (rest : Bytes) :
    (∃ more, (parser.step b rest).1 = .begin :: more) ∨
      ∀ e ∈ (parser.step b rest).1, e.isBehindHead = true := by
  cases parser with
  | head scan size => cases outside
  | failed => exact .inr (by simp [step])
  | idle =>
      rw [step]
      split
      · exact .inr (by simp)
      · exact .inl ⟨_, rfl⟩
  | body left =>
      refine .inr ?_
      simp only [step]
      split <;> simp [Event.isBehindHead]
  | chunked place =>
      refine .inr ?_
      cases place with
      | data left => simp [step, Event.isBehindHead]
      | _ =>
          simp only [step, chunkStep]
          split <;> simp [Event.isBehindHead]
  | upgraded => exact .inr (by simp [step, Event.isBehindHead])

end Parser

namespace Assembly

/-- With others behind it, the first request is left alone. -/
theorem deliver_first (limits : Limits) {queue : RequestQueue} {first : Request}
    {rest : List Request} (items : queue.items = first :: rest) (others : rest ≠ [])
    (events : List Event) :
    ∃ rest', (deliver (listener limits) events queue).2.items = first :: rest' ∧ rest' ≠ [] := by
  induction events generalizing queue rest with
  | nil => exact ⟨rest, items, others⟩
  | cons event more ih =>
      obtain ⟨before, last, rfl⟩ := List.eq_nil_or_concat rest |>.resolve_left others
      obtain rfl : queue = (⟨first :: before⟩ : RequestQueue).push last := by
        obtain ⟨all⟩ := queue
        simpa [RequestQueue.push] using items
      have pushed : ∀ next : Request,
          ((⟨first :: before⟩ : RequestQueue).push next).items = first :: (before ++ [next]) :=
        fun _ => rfl
      have told : ∃ refusal rest', listener limits event
          ((⟨first :: before⟩ : RequestQueue).push last) = (refusal, ⟨first :: rest'⟩) ∧
            rest' ≠ [] := by
        by_cases begins : event = .begin
        · subst begins
          exact ⟨none, before ++ [last] ++ [Request.new], rfl, by simp⟩
        by_cases ends : event = .complete
        · subst ends
          exact ⟨_, _, listener_complete limits _ _, by simp⟩
        · have inside : event.isInner = true := by
            cases event <;> first | rfl | exact absurd rfl begins | exact absurd rfl ends
          obtain ⟨change, -, told⟩ := listener_inner limits inside
          exact ⟨_, _, told _ _, by simp⟩
      obtain ⟨refusal, rest', told, more'⟩ := told
      rw [deliver, told]
      cases refusal with
      | some refusal => exact ⟨rest', rfl, more'⟩
      | none => exact ih rfl more'

/-- A fragment of a body leaves all but the body as it was, and then nobody waits any more. -/
theorem addBody_keeps {α : Type} (limits : Limits) {bytes : Bytes}
    (nonempty : bytes.isEmpty = false) (request : Request) (field : Request → α)
    (blind : ∀ (request : Request) (body : Option Body),
      field { request with body := body } = field request) :
    field (addBody limits bytes request).2 = field { request with expectContinue := false } := by
  simp only [addBody, nonempty, Bool.false_eq_true, if_false]
  split
  · rfl
  split
  · rfl
  refine andThen_keeps field ?_ fun other same => ?_
  · split
    · rfl
    · simp only [openBody]
      split
      · exact blind { request with expectContinue := false } _
      · rfl
  · split
    · exact same
    · split <;> exact (blind _ _).trans same

/-- What comes behind a head never asks for an interim answer. -/
theorem deliver_behindHead (limits : Limits) {first : Request}
    (told : first.expectContinue = false) {events : List Event}
    (behind : ∀ e ∈ events, e.isBehindHead = true) :
    ∃ next : Request, (deliver (listener limits) events ⟨[first]⟩).2 = ⟨[next]⟩ ∧
      next.expectContinue = false := by
  induction events generalizing first with
  | nil => exact ⟨first, rfl, told⟩
  | cons event more ih =>
      have step : ∃ (refusal : Option Refusal) (next : Request),
          listener limits event ⟨[first]⟩ = (refusal, ⟨[next]⟩) ∧ next.expectContinue = false := by
        have here := behind event List.mem_cons_self
        cases event with
        | complete => exact ⟨none, _, listener_complete limits ⟨[]⟩ first, told⟩
        | body bytes =>
            cases empty : bytes.isEmpty with
            | true => exact ⟨none, first, by simp [listener, empty], told⟩
            | false =>
                refine ⟨(addBody limits bytes first).1, (addBody limits bytes first).2, ?_,
                  addBody_keeps limits empty first (·.expectContinue) fun _ _ => rfl⟩
                rw [listener, empty]
                rfl
        | _ => cases here
      obtain ⟨refusal, next, heard, kept⟩ := step
      rw [deliver, heard]
      cases refusal with
      | some refusal => exact ⟨next, rfl, kept⟩
      | none => exact ih kept fun e member => behind e (List.mem_cons_of_mem _ member)

end Assembly

namespace Intake

/-! ## A head that is being read -/

/-- The request whose head is being read has not asked for an interim answer. -/
def HeadFresh (intake : Intake) : Prop :=
  intake.parser.inHead = true → ∀ last, intake.queue.items.getLast? = some last →
    last.expectContinue = false

theorem feed_headFresh (limits : Limits) {intake : Intake} (fresh : intake.HeadFresh)
    (data : Bytes) : (intake.feed limits data).intake.HeadFresh := by
  -- once feeding stopped the parser is in no head, so a stopped queue owes nothing
  have kept := feed_invariant limits (fun parser queue => HeadFresh ⟨parser, queue⟩)
    (fun _ => True) ?_ fresh data
  · rcases kept with ⟨_, -, fresh⟩ | ⟨fault, queue, -, -, same⟩
    · exact fresh
    · rw [same]
      intro inside
      cases inside
  · intro parser queue b rest fresh
    rcases stepped : parser.step b rest with ⟨events, result⟩
    rcases told : deliver (Assembly.listener limits) events queue with ⟨refusal, after⟩
    cases refusal with
    | some refusal => trivial
    | none =>
        cases result with
        | error fault => trivial
        | ok result =>
            obtain ⟨next, taken⟩ := result
            intro inside last isLast
            rcases Parser.step_inHead stepped inside with begins | ⟨none, before⟩
            · rw [begins, deliver, Assembly.listener] at told
              cases told
              rw [RequestQueue.getLast?_push] at isLast
              cases isLast
              rfl
            · rw [none] at told
              cases told
              exact fresh before last isLast

/-! ## A first request that was told to go on -/

/-- The first request of a queue does not wait for an interim answer. -/
def FirstPlain (queue : RequestQueue) : Prop :=
  ∃ first rest, queue.items = first :: rest ∧ first.expectContinue = false

/-- The first request was told to go on, and no head that might ask again is its own. -/
def FirstTold (intake : Intake) : Prop :=
  ∃ first rest, intake.queue.items = first :: rest ∧ first.expectContinue = false ∧
    (rest = [] → intake.parser.inHead = false)

/-- An error that is recorded takes nothing away, and asks for nothing. -/
theorem recordFailure_first {queue : RequestQueue} {first : Request} {rest : List Request}
    (items : queue.items = first :: rest) (plain : first.expectContinue = false)
    (status : Status) :
    ∃ first' rest', (queue.recordFailure status).items = first' :: rest' ∧
      first'.expectContinue = false ∧ (rest' = [] → rest = []) := by
  obtain ⟨front, last, rfl⟩ :=
    queue.empty_or_push.resolve_left fun empty => by rw [items] at empty; cases empty
  rw [RequestQueue.recordFailure_push]
  split
  · refine ⟨first, rest ++ [Request.new.fail status], ?_, plain, fun none => ?_⟩
    · rw [RequestQueue.push, items]
      rfl
    · exact absurd none (by simp)
  · obtain ⟨before⟩ := front
    cases before with
    | nil =>
        obtain ⟨rfl, rfl⟩ := List.cons.inj items
        exact ⟨_, [], rfl, plain, fun _ => rfl⟩
    | cons head others =>
        obtain ⟨rfl, rfl⟩ := List.cons.inj items
        exact ⟨_, _, rfl, plain, fun none => absurd none (by simp)⟩

theorem FirstPlain.recordFailure {queue : RequestQueue} (plain : FirstPlain queue)
    (status : Status) : FirstPlain (queue.recordFailure status) := by
  obtain ⟨first, rest, items, told⟩ := plain
  obtain ⟨first', rest', after, told', -⟩ := recordFailure_first items told status
  exact ⟨first', rest', after, told'⟩

theorem FirstTold.cutShort {intake : Intake} (told : intake.FirstTold) (status : Status) :
    (intake.cutShort status).FirstTold := by
  rw [Intake.cutShort]
  split
  · exact told
  · obtain ⟨first, rest, items, plain, outside⟩ := told
    obtain ⟨first', rest', after, plain', more⟩ := recordFailure_first items plain status
    exact ⟨first', rest', after, plain', fun alone => outside (more alone)⟩

/-- A first request that does not wait was told to go on, unless it stands alone before a
parser inside a head. -/
theorem outcome_of_first {told : Option Refusal × RequestQueue}
    {result : Except ParseError (Parser × Nat)} {first : Request} {others : List Request}
    (items : told.2.items = first :: others) (plain : first.expectContinue = false)
    (outside : others = [] → ∀ next taken, result = .ok (next, taken) → next.inHead = false) :
    Outcome (fun parser queue => FirstTold ⟨parser, queue⟩) FirstPlain told result := by
  obtain ⟨refusal, after⟩ := told
  cases refusal with
  | some refusal => exact ⟨first, others, items, plain⟩
  | none =>
      cases result with
      | error fault => exact ⟨first, others, items, plain⟩
      | ok result => exact ⟨first, others, items, plain, fun alone => outside alone _ _ rfl⟩

theorem firstTold_step (limits : Limits) {parser : Parser} {queue : RequestQueue} (b : UInt8)
    (rest : Bytes) (told : FirstTold ⟨parser, queue⟩) :
    Outcome (fun parser queue => FirstTold ⟨parser, queue⟩) FirstPlain
      (deliver (Assembly.listener limits) (parser.step b rest).1 queue)
      (parser.step b rest).2 := by
  obtain ⟨first, others, items, plain, outside⟩ := told
  by_cases alone : others = []
  · subst alone
    obtain rfl : queue = ⟨[first]⟩ := by
      obtain ⟨all⟩ := queue
      exact congrArg RequestQueue.mk items
    have outside : parser.inHead = false := outside rfl
    rcases Parser.step_outsideHead outside b rest with ⟨more, begins⟩ | behind
    · rw [begins]
      obtain ⟨others, after, still⟩ := Assembly.deliver_first limits
        (show (RequestQueue.push ⟨[first]⟩ Request.new).items = _ from rfl) (by simp) more
      exact outcome_of_first after plain fun none => absurd none still
    · obtain ⟨next, after, kept⟩ := Assembly.deliver_behindHead limits plain behind
      refine outcome_of_first (by rw [after]) kept fun _ later taken same => ?_
      cases inside : later.inHead with
      | false => rfl
      | true =>
          have stepped : parser.step b rest =
              ((parser.step b rest).1, .ok (later, taken)) := by rw [← same]
          rcases Parser.step_inHead stepped inside with begins | ⟨-, before⟩
          · have behind := behind .begin (by rw [begins]; exact List.mem_cons_self)
            cases behind
          · exact absurd (outside.symm.trans before) (by decide)
  -- with others behind it the first request hears nothing more
  · obtain ⟨others', after, still⟩ :=
      Assembly.deliver_first limits items alone (parser.step b rest).1
    exact outcome_of_first after plain fun none => absurd none still

/-- **A first request that was told to go on does not ask again, whatever is fed.** -/
theorem feed_firstTold (limits : Limits) {intake : Intake} (told : intake.FirstTold)
    (data : Bytes) : (intake.feed limits data).intake.FirstTold := by
  have kept := feed_invariant limits (fun parser queue => FirstTold ⟨parser, queue⟩) FirstPlain
    (fun _ _ b rest here => firstTold_step limits b rest here) told data
  rcases kept with ⟨_, -, told⟩ | ⟨fault, queue, -, plain, same⟩
  · exact told
  · rw [same]
    obtain ⟨first, rest, items, told⟩ := plain.recordFailure fault.status
    exact ⟨first, rest, items, told, fun _ => rfl⟩

end Intake

end EmbeddedHttp
