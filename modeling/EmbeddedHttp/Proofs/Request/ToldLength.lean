/-
# EmbeddedHttp.Proofs.Request.ToldLength -- the length that an application is told

A head is framed by all its fields at once, and an application is told the length that the
first Content-Length field names.  What is known of a request is kept along its message: it
has the fields of its head, the length that these declare, and what came of its body
(`Assembly.Keeps`), and it is complete only when all of its body came (`Assembly.Told`).  So
the length that is told is the length that can be read, unless the body came in chunks
(`Intake.feedAll_toldLength`).
-/
import EmbeddedHttp.Proofs.Request.Admitting
import EmbeddedHttp.Proofs.Request.Assembled
import EmbeddedHttp.Proofs.Request.InStep
import EmbeddedHttp.Proofs.Request.Persistence
import EmbeddedHttp.Proofs.Text.Numeral

namespace EmbeddedHttp

set_option autoImplicit false

namespace Assembly

open Head (valuesOf LengthsDenote)

variable {limits : Limits} {raw : Head.Raw} {facts : HeadFacts} {data : Bytes}
  {request next : Request}

/-! ## What is kept of a message -/

/-- A request behind its head, of whose body `data` came. -/
structure Keeps (raw : Head.Raw) (facts : HeadFacts) (data : Bytes) (request : Request) :
    Prop where
  announced : raw.announce.2 = .ok facts
  headers : request.headers = texts raw.fields
  declared : request.declaredLength = declaredBy facts
  upgrade : request.upgrade = facts.upgrade
  content : (request.body.map Body.content).getD [] = data

/-- All of a message came: as much of a body as its head declares, if it does. -/
def Told (request : Request) : Prop :=
  ∃ raw facts data, Keeps raw facts data request ∧ ∀ n ∈ facts.bodyLength, data.length = n

/-- A head that is settled declares what its facts do. -/
theorem settle_declares (settled : settle limits facts request = (none, next))
    (undeclared : request.declaredLength = none) :
    next.upgrade = facts.upgrade ∧ next.declaredLength = declaredBy facts := by
  obtain ⟨described, describing, settled⟩ := andThen_ok settled
  obtain ⟨checked, checking, settled⟩ := andThen_ok settled
  obtain ⟨noted, noting, admitting⟩ := andThen_ok settled
  rw [checkHandshake_ok checking] at noting
  have known : described.upgrade = facts.upgrade ∧ described.declaredLength = none := by
    rw [describe] at describing
    split at describing
    · cases describing
    · cases describing
      exact ⟨rfl, undeclared⟩
  have still : noted.upgrade = facts.upgrade ∧ noted.declaredLength = none := by
    rw [noteExpectation] at noting
    repeat' split at noting
    all_goals
      cases noting
      try exact known
  rw [declaredBy]
  simp only [admitFraming, openBody] at admitting
  cases framing : facts.framing with
  | length n =>
      simp only [framing] at admitting
      repeat' split at admitting
      all_goals
        cases admitting
        try exact ⟨still.1, rfl⟩
  | none =>
      simp only [framing] at admitting
      split at admitting
      · cases admitting
      · cases admitting
        exact still
  | chunked =>
      simp only [framing] at admitting
      cases admitting
      exact still

theorem push_inj {queue other : RequestQueue} (same : queue.push request = other.push next) :
    queue = other ∧ request = next := by
  obtain ⟨front, last⟩ := List.append_inj' (congrArg RequestQueue.items same) rfl
  refine ⟨?_, (List.cons.inj last).1⟩
  cases queue
  cases other
  exact congrArg RequestQueue.mk front

/-- A head that is accepted is kept as it was announced. -/
theorem deliver_head_keeps (announced : raw.announce.2 = .ok facts) {queue after : RequestQueue}
    (accepted : deliver (listener limits) (.begin :: raw.announce.1) queue = (none, after)) :
    ∃ next, after = queue.push next ∧ Keeps raw facts [] next := by
  obtain ⟨request, next, gathered, filed, completed, rfl⟩ :=
    deliver_head_filed announced accepted
  -- what was gathered up to the end of the head says nothing of a body
  have ofHead : ∀ e ∈ Event.target raw.target :: Head.fieldEvents raw.fields,
      e.isOfHead = true ∧ ∀ facts, e ≠ .head facts := by
    intro e member
    simp only [Head.fieldEvents, List.mem_cons, List.mem_flatMap, List.not_mem_nil,
      or_false] at member
    rcases member with rfl | ⟨field, -, rfl | rfl⟩ <;> exact ⟨rfl, by rintro _ ⟨⟩⟩
  obtain ⟨other, told, fresh⟩ := fresh_new.deliver limits ofHead queue
  rw [gathered] at told
  obtain ⟨-, rfl⟩ := push_inj told
  rw [completeHead_settle] at completed
  obtain ⟨stored, storing, settled⟩ := andThen_ok completed
  have still := fresh.storeField
  rw [storing] at still
  have described := settle_describes settled still.body
  obtain ⟨upgrade, declared⟩ := settle_declares settled still.declared
  refine ⟨next, rfl, announced, described.headers.trans (filed.stored storing).1, declared,
    upgrade, ?_⟩
  have empty := described.body
  cases place : next.body with
  | none => rfl
  | some body =>
      rw [place] at empty
      exact empty.1

/-- A fragment that is accepted goes behind what came before. -/
theorem Keeps.addBody {bytes : Bytes} (keeps : Keeps raw facts data request)
    (nonempty : bytes.isEmpty = false)
    (accepted : Assembly.addBody limits bytes request = (none, next)) :
    Keeps raw facts (data ++ bytes) next := by
  have kept {α : Type} (field : Request → α) := addBody_keeps limits nonempty request field
  rw [accepted] at kept
  refine ⟨keeps.announced, (kept (·.headers) fun _ _ => rfl).trans keeps.headers,
    (kept (·.declaredLength) fun _ _ => rfl).trans keeps.declared,
    (kept (·.upgrade) fun _ _ => rfl).trans keeps.upgrade, ?_⟩
  have before := keeps.content
  simp only [Assembly.addBody, nonempty, Bool.false_eq_true, if_false] at accepted
  split at accepted
  · cases accepted
  split at accepted
  · cases accepted
  obtain ⟨opened, opening, accepted⟩ := andThen_ok accepted
  have held : ∃ body, opened.body = some body ∧ body.content = data := by
    cases place : request.body with
    | some body =>
        simp only [place] at opening
        cases opening
        exact ⟨body, rfl, by simpa [place] using before⟩
    | none =>
        simp only [place, openBody] at opening
        split at opening
        · rename_i body made
          cases opening
          refine ⟨body, rfl, (Body.forLength?_room made).1.trans ?_⟩
          simpa [place] using before
        · cases opening
  obtain ⟨body, place, content⟩ := held
  simp only [place] at accepted
  rcases written : body.write bytes limits.spoolThreshold with ⟨after, fault⟩
  rw [written] at accepted
  cases fault with
  | some fault => cases accepted
  | none =>
      cases accepted
      show after.content = data ++ bytes
      rw [Body.write_content written, content]

/-! ## What reading keeps -/

/-- A request that is complete and without an error, and does not ask for an upgrade, has all
of its message. -/
def Good (request : Request) : Prop :=
  request.complete = true → request.failure = none → request.upgrade = false → Told request

theorem Good.of_unready (unready : request.isReady = false) : Good request := by
  intro complete
  simp [Request.isReady, complete] at unready

theorem Good.of_upgrade (upgrade : request.upgrade = true) : Good request := by
  intro _ _ plain
  rw [upgrade] at plain
  cases plain

theorem Good.of_fail (request : Request) (status : Status) : Good (request.fail status) := by
  intro _ sound
  cases sound

/-- The end of a message of which all came. -/
theorem Keeps.good (keeps : Keeps raw facts data request)
    (all : facts.upgrade = false → ∀ n ∈ facts.bodyLength, data.length = n) :
    Good { request with complete := true } := by
  intro _ _ plain
  refine ⟨raw, facts, data, ⟨keeps.announced, keeps.headers, keeps.declared, keeps.upgrade,
    keeps.content⟩, all ?_⟩
  rw [← keeps.upgrade]
  exact plain

end Assembly

namespace Intake

open Assembly (Good Keeps)

variable {limits : Limits} {queue before : RequestQueue} {last : Request}

/-- All requests are good. -/
def AllGood (queue : RequestQueue) : Prop := ∀ request ∈ queue.items, Good request

theorem AllGood.push (all : AllGood before) (good : Good last) : AllGood (before.push last) := by
  intro request member
  simp only [RequestQueue.push, List.mem_append, List.mem_singleton] at member
  rcases member with earlier | rfl
  · exact all request earlier
  · exact good

theorem AllGood.front (all : AllGood (before.push last)) : AllGood before :=
  fun request member => all request (by simp [RequestQueue.push, member])

/-- An error that is recorded makes no request that claims anything. -/
theorem AllGood.recordFailure (all : AllGood queue) (status : Status) :
    AllGood (queue.recordFailure status) := by
  rcases queue.empty_or_push with empty | ⟨before, last, rfl⟩
  · have alone : queue.recordFailure status = queue.push (Request.new.fail status) := by
      simp [RequestQueue.recordFailure, RequestQueue.inProgress?, empty]
    rw [alone]
    exact all.push (.of_fail _ _)
  · rw [RequestQueue.recordFailure_push]
    split
    · exact all.push (.of_fail _ _)
    · exact all.front.push (.of_fail _ _)

/-- The last request holds what came of its message so far, of whose body `left` is still to
come if the head told how much. -/
def Receives (left : Option Nat) (queue : RequestQueue) : Prop :=
  ∃ before last raw facts data, queue = RequestQueue.push before last ∧ AllGood before ∧
    last.isReady = false ∧ Keeps raw facts data last ∧
    facts.bodyLength = left.map (data.length + ·)

/-- What holds between two steps of reading, by where the parser is. -/
def Keeping : Parser → RequestQueue → Prop
  | .idle, queue | .failed, queue => AllGood queue
  | .head _ _, queue => ∃ before, queue = RequestQueue.push before Request.new ∧ AllGood before
  | .body left, queue => 0 < left ∧ Receives (some left) queue
  | .chunked _, queue => Receives none queue
  | .upgraded, queue => AllGood queue ∧
      ∀ before last, queue = RequestQueue.push before last → last.upgrade = true

/-! ## One step of reading -/

section Steps

variable {events : List Event} {next : Parser}

/-- Events inside a message, behind which it is at fault. -/
theorem keeping_fault (all : AllGood before) (unready : last.isReady = false)
    (inside : ∀ e ∈ events, e.isInner = true) (fault : ParseError) :
    Outcome Keeping AllGood (deliver (Assembly.listener limits) events (before.push last))
      (.error fault) := by
  obtain ⟨refusal, changed, told, same⟩ := Assembly.deliver_inner limits inside before last
  have stopped : AllGood (before.push changed) := all.push (.of_unready (same.trans unready))
  rw [told]
  cases refusal <;> exact stopped

/-- Events inside a message, behind which it goes on. -/
theorem keeping_inner (all : AllGood before) (unready : last.isReady = false)
    (inside : ∀ e ∈ events, e.isInner = true) (taken : Nat)
    (goesOn : ∀ changed, changed.isReady = false →
      deliver (Assembly.listener limits) events (before.push last) =
        (none, before.push changed) → Keeping next (before.push changed)) :
    Outcome Keeping AllGood (deliver (Assembly.listener limits) events (before.push last))
      (.ok (next, taken)) := by
  obtain ⟨refusal, changed, told, same⟩ := Assembly.deliver_inner limits inside before last
  have still := same.trans unready
  cases refusal with
  | some refusal =>
      rw [told]
      exact all.push (.of_unready still)
  | none =>
      have further := goesOn changed still told
      rw [told]
      exact further

/-- Events inside a message, and its end. -/
theorem keeping_complete (all : AllGood before) (unready : last.isReady = false)
    (inside : ∀ e ∈ events, e.isInner = true) (taken : Nat)
    (ended : ∀ changed,
      deliver (Assembly.listener limits) events (before.push last) =
        (none, before.push changed) →
      Keeping next (before.push { changed with complete := true })) :
    Outcome Keeping AllGood
      (deliver (Assembly.listener limits) (events ++ [.complete]) (before.push last))
      (.ok (next, taken)) := by
  obtain ⟨refusal, changed, told, same⟩ := Assembly.deliver_inner limits inside before last
  cases refusal with
  | some refusal =>
      rw [Parser.deliver_append, told]
      exact all.push (.of_unready (same.trans unready))
  | none =>
      have further := ended changed told
      rw [Parser.deliver_append, told]
      simp only [deliver, Assembly.listener_complete]
      exact further

/-- One octet of a head; behind its end stands what was announced. -/
theorem headStep_keeping (all : AllGood before) (scan : Head.Scan) (size : Nat) (b : UInt8) :
    Outcome Keeping AllGood
      (deliver (Assembly.listener limits) (Parser.headStep scan size b).1
        (before.push Request.new))
      (Parser.headStep scan size b).2 := by
  have noEvents : ∀ e ∈ ([] : List Event), e.isInner = true := by simp
  simp only [Parser.headStep]
  cases scan.step b with
  | more scan =>
      dsimp only
      split
      · exact keeping_fault all rfl noEvents _
      · exact ⟨before, rfl, all⟩
  | malformed cause => exact keeping_fault all rfl noEvents _
  | tooManyFields => exact keeping_fault all rfl noEvents _
  | complete raw =>
      have inside : ∀ e ∈ raw.announce.1, e.isInner = true := fun e member =>
        Event.isInner_of_isOfHead (Parser.announce_ofHead raw e member)
      have keeps : ∀ {facts : HeadFacts} {changed : Request}, raw.announce.2 = .ok facts →
          deliver (Assembly.listener limits) raw.announce.1 (before.push Request.new) =
            (none, before.push changed) → Keeps raw facts [] changed := by
        intro facts changed announced told
        have begun : deliver (Assembly.listener limits) (.begin :: raw.announce.1) before =
            (none, before.push changed) := told
        obtain ⟨next, same, keeps⟩ := Assembly.deliver_head_keeps announced begun
        rw [(Assembly.push_inj same).2]
        exact keeps
      simp only [Parser.afterHead]
      cases announced : raw.announce.2 with
      | error cause => exact keeping_fault all rfl inside _
      | ok facts =>
          dsimp only
          have empty : facts.bodyLength = some 0 → ∀ changed,
              deliver (Assembly.listener limits) raw.announce.1 (before.push Request.new) =
                (none, before.push changed) →
              AllGood (before.push { changed with complete := true }) := by
            intro nothing changed told
            refine all.push ((keeps announced told).good fun _ n known => ?_)
            rw [nothing] at known
            exact Option.some.inj known
          split
          · rename_i upgrade
            refine keeping_complete all rfl inside _ fun changed told => ?_
            have asks : changed.upgrade = true := (keeps announced told).upgrade.trans upgrade
            refine ⟨all.push (.of_upgrade asks), fun other last same => ?_⟩
            rw [← (Assembly.push_inj same).2]
            exact asks
          · split
            · rename_i framing
              refine keeping_inner all rfl inside _ fun changed unready told => ?_
              exact ⟨before, changed, raw, facts, [], rfl, all, unready, keeps announced told,
                by rw [HeadFacts.bodyLength, framing]; rfl⟩
            · rename_i n framing
              refine keeping_inner all rfl inside _ fun changed unready told => ?_
              refine ⟨Nat.succ_pos n, before, changed, raw, facts, [], rfl, all, unready,
                keeps announced told, ?_⟩
              rw [HeadFacts.bodyLength, framing]
              simp
            · rename_i notChunked notMore
              refine keeping_complete all rfl inside _ (empty ?_)
              rw [HeadFacts.bodyLength]
              cases framing : facts.framing with
              | none => rfl
              | chunked => exact absurd framing notChunked
              | length n =>
                  cases n with
                  | zero => rfl
                  | succ n => exact absurd framing (notMore n)

/-- A fragment of a body concerns the last request. -/
theorem deliver_body (limits : Limits) (b : UInt8) (rest : Bytes) (before : RequestQueue)
    (last : Request) :
    deliver (Assembly.listener limits) [.body (b :: rest)] (before.push last) =
      ((Assembly.addBody limits (b :: rest) last).1,
        before.push (Assembly.addBody limits (b :: rest) last).2) := by
  simp only [deliver, Assembly.listener, List.isEmpty_cons, Bool.false_eq_true, if_false,
    Assembly.changeLast_push]
  cases (Assembly.addBody limits (b :: rest) last).1 <;> rfl

theorem deliver_body_keeps {raw : Head.Raw} {facts : HeadFacts} {data rest : Bytes} {b : UInt8}
    {changed : Request} (keeps : Keeps raw facts data last)
    (told : deliver (Assembly.listener limits) [.body (b :: rest)] (before.push last) =
      (none, before.push changed)) : Keeps raw facts (data ++ b :: rest) changed := by
  rw [deliver_body] at told
  obtain ⟨accepted, same⟩ := Prod.mk.inj told
  have added : Assembly.addBody limits (b :: rest) last = (none, changed) :=
    Prod.ext accepted (Assembly.push_inj same).2
  exact keeps.addBody rfl added

theorem chunkStep_keeping {place : Chunk.Place} (receives : Receives none queue) (b : UInt8) :
    Outcome Keeping AllGood
      (deliver (Assembly.listener limits) (Parser.chunkStep place b).1 queue)
      (Parser.chunkStep place b).2 := by
  obtain ⟨before, last, raw, facts, data, rfl, all, unready, keeps, unknown⟩ := receives
  have noEvents : ∀ e ∈ ([] : List Event), e.isInner = true := by simp
  simp only [Parser.chunkStep]
  cases place.step b with
  | next place => exact ⟨before, last, raw, facts, data, rfl, all, unready, keeps, unknown⟩
  | finished =>
      refine keeping_complete all unready noEvents _ fun changed told => ?_
      rw [← (Assembly.push_inj (Prod.mk.inj told).2).2]
      refine all.push (keeps.good fun _ n known => ?_)
      rw [unknown] at known
      cases known
  | malformed cause => exact keeping_fault all unready noEvents _
  | tooLong => exact keeping_fault all unready noEvents _

/-- **One step of reading keeps what is known of every request.** -/
theorem step_keeping (limits : Limits) {parser : Parser} (keeping : Keeping parser queue)
    (b : UInt8) (rest : Bytes) :
    Outcome Keeping AllGood (deliver (Assembly.listener limits) (parser.step b rest).1 queue)
      (parser.step b rest).2 := by
  have inside : ∀ bytes, ∀ e ∈ [Event.body bytes], e.isInner = true := by simp [Event.isInner]
  cases parser with
  | failed => exact keeping
  | idle =>
      simp only [Parser.step]
      split
      · exact keeping
      · exact headStep_keeping keeping Head.Scan.start 0 b
  | head scan size =>
      obtain ⟨before, rfl, all⟩ := keeping
      exact headStep_keeping all scan size b
  | body left =>
      obtain ⟨positive, before, last, raw, facts, data, rfl, all, unready, keeps, known⟩ := keeping
      have size : (b :: rest.take (left - 1)).length ≤ left := by
        simp only [List.length_cons, List.length_take]
        omega
      have added : ∀ changed, deliver (Assembly.listener limits) [.body (b :: rest.take (left - 1))]
          (before.push last) = (none, before.push changed) →
          Keeps raw facts (data ++ b :: rest.take (left - 1)) changed :=
        fun changed told => deliver_body_keeps keeps told
      rw [Option.map_some] at known
      simp only [Parser.step]
      generalize b :: rest.take (left - 1) = fragment at size added ⊢
      split
      · rename_i enough
        refine keeping_complete all unready (inside fragment) _ fun changed told => ?_
        refine all.push ((added changed told).good fun _ n declared => ?_)
        have total : data.length + left = n := Option.some.inj (known.symm.trans declared)
        rw [List.length_append]
        omega
      · rename_i more
        refine keeping_inner all unready (inside fragment) _ fun changed still told => ?_
        refine ⟨by omega, before, changed, raw, facts, _, rfl, all, still, added changed told, ?_⟩
        rw [known, Option.map_some, List.length_append]
        congr 1
        omega
  | chunked place =>
      cases place with
      | data left =>
          obtain ⟨before, last, raw, facts, data, rfl, all, unready, keeps, unknown⟩ := keeping
          simp only [Parser.step]
          refine keeping_inner all unready (inside _) _ fun changed still told => ?_
          exact ⟨before, changed, raw, facts, _, rfl, all, still, deliver_body_keeps keeps told,
            unknown⟩
      | _ => exact chunkStep_keeping keeping b
  | upgraded =>
      obtain ⟨all, upgrade⟩ := keeping
      simp only [Parser.step]
      -- what follows an upgrade finds its request, unless that was taken
      rcases queue.empty_or_push with empty | ⟨before, last, rfl⟩
      · have refused : deliver (Assembly.listener limits) [.body (b :: rest)] queue =
            (some (.status .internalServerError), queue) := by
          simp [deliver, Assembly.listener, Assembly.changeLast, empty]
        rw [refused]
        exact all
      · have filled : (b :: rest).isEmpty = false := rfl
        have asks := Assembly.addBody_keeps limits filled last (·.upgrade) fun _ _ => rfl
        have still : (Assembly.addBody limits (b :: rest) last).2.upgrade = true :=
          asks.trans (upgrade before last rfl)
        have kept := all.front.push (.of_upgrade still)
        rw [deliver_body]
        cases (Assembly.addBody limits (b :: rest) last).1 with
        | some refusal => exact kept
        | none =>
            refine ⟨kept, fun other last same => ?_⟩
            rw [← (Assembly.push_inj same).2]
            exact still

end Steps

/-! ## Streams -/

theorem Keeping.allGood {parser : Parser} (keeping : Keeping parser queue) : AllGood queue := by
  have received : ∀ {left : Option Nat}, Receives left queue → AllGood queue := by
    rintro left ⟨before, last, raw, facts, data, rfl, all, unready, -⟩
    exact all.push (.of_unready unready)
  cases parser with
  | idle | failed => exact keeping
  | head scan size =>
      obtain ⟨before, rfl, all⟩ := keeping
      exact all.push (.of_unready rfl)
  | body left => exact received keeping.2
  | chunked place => exact received keeping
  | upgraded => exact keeping.1

/-- However a stream is cut, every request that comes of it is good. -/
theorem feedAll_good (limits : Limits) (pieces : List Bytes) :
    AllGood (feedAll limits .empty pieces).intake.queue := by
  have read := @Parser.runAll_invariant
    (fun told result => Outcome Keeping AllGood
      (deliver (Assembly.listener limits) told .empty) (result.map (·, 0))) [] .idle
    (fun told parser b rest kept => ?_) (fun request member => nomatch member) pieces
  · rw [List.nil_append] at read
    rw [show Intake.empty = ⟨.idle, .empty⟩ from rfl, feedAll_eq]
    dsimp only
    generalize deliver (Assembly.listener limits) (Parser.runAll pieces .idle).1 .empty = told
      at read ⊢
    obtain ⟨refusal, queue⟩ := told
    cases refusal with
    | some refusal => exact AllGood.recordFailure read _
    | none =>
        cases outcome : (Parser.runAll pieces .idle).2 with
        | error fault =>
            rw [outcome] at read
            exact AllGood.recordFailure read _
        | ok parser =>
            rw [outcome] at read
            exact Keeping.allGood read
  · -- one more step of reading, if nothing was refused before it
    rw [Parser.deliver_append]
    generalize deliver (Assembly.listener limits) told .empty = heard at kept ⊢
    obtain ⟨refusal, queue⟩ := heard
    cases refusal with
    | some refusal => exact kept
    | none =>
        have further := step_keeping limits kept b rest
        dsimp only at further ⊢
        generalize deliver (Assembly.listener limits) (parser.step b rest).1 queue = later
          at further ⊢
        obtain ⟨refusal, last⟩ := later
        cases stepped : (parser.step b rest).2 <;> rw [stepped] at further <;>
          cases refusal <;> exact further

end Intake

namespace Assembly

open Head (valuesOf LengthsDenote)

variable {raw : Head.Raw} {facts : HeadFacts} {data : Bytes} {request : Request}

/-! ## What an application is told -/

/-- A Content-Length that is a number on the wire is the same number in text. -/
theorem numeral?_decodeLossy {value : Bytes} {n : Nat}
    (denotes : Head.contentLength? value = some n) :
    Text.numeral? Bytes.wordBound (Text.trimChars (Utf8.decodeLossy value).toList) = some n := by
  have proper : Bytes.trimBlanks value ≠ [] ∧
      ∀ b ∈ Bytes.trimBlanks value, Bytes.isDigit b = true := by
    rw [Head.contentLength?] at denotes
    dsimp only at denotes
    split at denotes
    · cases denotes
    · rename_i digits
      simp only [Bool.or_eq_true, Bool.not_eq_true', not_or, Bool.not_eq_true, Bool.not_eq_false,
        List.isEmpty_eq_false_iff, List.all_eq_true] at digits
      exact digits
  have same := Utf8.ofText_decodeLossy (Text.ascii_of_trimBlanks proper.2)
  rw [Text.numeral?_of_digits (by rw [same]; exact proper.1) (by rw [same]; exact proper.2), same,
    denotes]

/-- What is told is what the Content-Length fields denote, if there are any. -/
theorem contentLength?_texts {n : Nat} (denote : LengthsDenote raw.fields n) (origin : Origin)
    (headers : request.headers = texts raw.fields) :
    (Environ.ofRequest request origin).contentLength? =
      if valuesOf "content-length" raw.fields = [] then none else some n := by
  have found : (Environ.ofRequest request origin).header? "content-length" =
      ((valuesOf "content-length" raw.fields).head?).map Utf8.decodeLossy := by
    rw [Environ.header?]
    show headerValue? request.headers "content-length" = _
    rw [headers]
    exact headerValue?_texts raw.fields (by decide)
  rw [Environ.contentLength?, found]
  cases values : valuesOf "content-length" raw.fields with
  | nil => rfl
  | cons value rest =>
      have first := denote value (by rw [values]; exact List.mem_cons_self)
      rw [List.head?_cons, Option.map_some, Option.bind_some, numeral?_decodeLossy first,
        if_neg (List.cons_ne_nil _ _)]

/-- What an application can read of a request is what came of its body. -/
theorem Keeps.input (keeps : Keeps raw facts data request) (origin : Origin) :
    (Environ.ofRequest request origin).input.size = data.length ∧
      (Environ.ofRequest request origin).input.readAll.1 = data := by
  have content := keeps.content
  rw [Environ.ofRequest]
  dsimp only
  cases place : request.body with
  | none =>
      rw [place] at content
      subst content
      exact ⟨rfl, rfl⟩
  | some body =>
      rw [place] at content
      have read : body.content = data := content
      dsimp only
      have all := ReadResult.bytes.inj (Input.readAll_ofBody body)
      exact ⟨congrArg List.length read, all.trans read⟩

/-- Without the chunked coding a head is framed by its lengths. -/
theorem announce_framedByLength (announced : raw.announce.2 = .ok facts)
    (unchunked : facts.framing ≠ .chunked) : Head.FramedByLength raw.fields facts.framing := by
  obtain ⟨n, denote, framed⟩ := Head.Raw.announce_framing announced
  rw [framed] at unchunked ⊢
  refine Head.Notes.passing_framedByLength denote ?_
  rw [Head.Notes.framing] at unchunked
  cases chunked : (Head.Notes.none.passing n raw.fields).chunked with
  | false => rfl
  | true =>
      rw [chunked] at unchunked
      exact absurd rfl unchunked

/-- Without the chunked coding the length that was declared is told. -/
theorem Keeps.told_unchunked (keeps : Keeps raw facts data request) (origin : Origin)
    (unchunked : facts.framing ≠ .chunked) :
    (Environ.ofRequest request origin).contentLength? = request.declaredLength := by
  rw [keeps.declared, declaredBy]
  rcases announce_framedByLength keeps.announced unchunked with
    ⟨absent, framing⟩ | ⟨n, present, denote, framing⟩
  · have any : LengthsDenote raw.fields 0 := by
      rw [LengthsDenote, absent]
      simp
    rw [framing, contentLength?_texts any origin keeps.headers, if_pos absent]
  · rw [framing, contentLength?_texts denote origin keeps.headers, if_neg present]

/-- With it none was declared, and one is told as soon as there is a field for it. -/
theorem Keeps.told_chunked (keeps : Keeps raw facts data request) (origin : Origin)
    (chunked : facts.framing = .chunked) : request.declaredLength = none ∧
      ((Environ.ofRequest request origin).contentLength? = none ↔
        valuesOf "content-length" raw.fields = []) := by
  refine ⟨by rw [keeps.declared, declaredBy, chunked], ?_⟩
  obtain ⟨n, denote, -⟩ := Head.Raw.announce_framing keeps.announced
  rw [contentLength?_texts denote origin keeps.headers]
  by_cases absent : valuesOf "content-length" raw.fields = []
  · simp only [absent, if_true]
  · simp only [absent, if_false, reduceCtorEq]

/-- A length that was declared is that of the body, once all of it came. -/
theorem Keeps.length (keeps : Keeps raw facts data request)
    (all : ∀ n ∈ facts.bodyLength, data.length = n) {n : Nat}
    (known : request.declaredLength = some n) : data.length = n := by
  rw [keeps.declared, declaredBy] at known
  cases framing : facts.framing with
  | length m =>
      rw [framing] at known
      obtain rfl := Option.some.inj known
      exact all m (by rw [HeadFacts.bodyLength, framing]; rfl)
  | none | chunked =>
      rw [framing] at known
      cases known

end Assembly

namespace Intake

open Head (valuesOf)

/-- **The length that an application is told is the length that it can read, unless the body
came in chunks.**  Take any request of any stream that is complete and without an error, and
does not ask for an upgrade.  If its head declared a length, that is what the application is
told, and as many octets can be read; if it declared none and the body is not chunked, none is
told.  But behind a chunked head a length is told as well as soon as there is a Content-Length
field: nothing was declared then, and any number of octets may be there. -/
theorem feedAll_toldLength (limits : Limits) {pieces : List Bytes} {request : Request}
    (member : request ∈ (feedAll limits .empty pieces).intake.queue.items)
    (complete : request.complete = true) (sound : request.failure = none)
    (plain : request.upgrade = false) (origin : Origin) :
    ∃ raw : Head.Raw, ∃ facts, raw.announce.2 = .ok facts ∧
      request.headers = Assembly.texts raw.fields ∧
      let environ := Environ.ofRequest request origin
      (facts.framing ≠ .chunked → environ.contentLength? = request.declaredLength) ∧
      (∀ n, request.declaredLength = some n → environ.contentLength? = some n ∧
        environ.input.size = n ∧ environ.input.readAll.1.length = n) ∧
      (facts.framing = .chunked → request.declaredLength = none ∧
        (environ.contentLength? = none ↔ valuesOf "content-length" raw.fields = [])) ∧
      ((∀ n, environ.contentLength? = some n →
          environ.input.size = n ∧ request.declaredLength = some n) ↔
        ¬ (facts.framing = .chunked ∧ valuesOf "content-length" raw.fields ≠ [])) := by
  obtain ⟨raw, facts, data, keeps, all⟩ := feedAll_good limits pieces request member complete
    sound plain
  refine ⟨raw, facts, keeps.announced, keeps.headers, ?_⟩
  intro environ
  obtain ⟨size, read⟩ := keeps.input origin
  by_cases chunked : facts.framing = .chunked
  · obtain ⟨undeclared, untold⟩ := keeps.told_chunked origin chunked
    refine ⟨fun other => absurd chunked other, fun n known => ?_, fun _ => ⟨undeclared, untold⟩,
      fun same => ?_, fun absent n known => ?_⟩
    · rw [undeclared] at known
      cases known
    · rintro ⟨-, present⟩
      obtain ⟨n, known⟩ := Option.ne_none_iff_exists'.1 fun none => present (untold.1 none)
      rw [(same n known).2] at undeclared
      cases undeclared
    · have none : environ.contentLength? = none :=
        untold.2 (Classical.not_not.1 fun present => absent ⟨chunked, present⟩)
      rw [none] at known
      cases known
  · have agree : environ.contentLength? = request.declaredLength :=
      keeps.told_unchunked origin chunked
    have sized : ∀ n, request.declaredLength = some n → environ.input.size = n :=
      fun n known => size.trans (keeps.length all known)
    refine ⟨fun _ => agree, fun n known => ⟨agree.trans known, sized n known, ?_⟩,
      fun is => absurd is chunked, iff_of_true (fun n known => ?_) fun both => chunked both.1⟩
    · rw [read, ← sized n known, size]
    · rw [agree] at known
      exact ⟨sized n known, known⟩

/-- A chunked body of five octets behind a Content-Length of three. -/
def misdeclared : Bytes :=
  Bytes.ofAscii "POST / HTTP/1.1\r\nTransfer-Encoding: chunked\r\nContent-Length: 3\r\n\r\n" ++
    Bytes.ofAscii "5\r\nhello\r\n0\r\n\r\n"

/-- An application is told of three octets and can read five. -/
theorem feedAll_toldLength_misdeclared :
    let limits : Limits := ⟨1024, 1024, true⟩
    let fed := feedAll limits .empty (Bytes.cutEvery 11 misdeclared)
    ∃ request ∈ fed.intake.queue.items, request.complete = true ∧ request.failure = none ∧
      request.upgrade = false ∧
      let environ := Environ.ofRequest request ⟨Peer.unix, "", 80⟩
      environ.contentLength? = some 3 ∧ environ.input.size = 5 ∧ request.declaredLength = none ∧
        ∃ raw : Head.Raw, ∃ facts, raw.announce.2 = .ok facts ∧ facts.framing = .chunked := by
  intro limits fed
  let view : Request → (Bool × Bool × Bool) × Option Nat × Option Nat × Nat := fun request =>
    let environ := Environ.ofRequest request ⟨Peer.unix, "", 80⟩
    ((request.complete, request.failure.isNone, request.upgrade), request.declaredLength,
      environ.contentLength?, environ.input.size)
  have seen : fed.intake.queue.items.head?.map view
      = some ((true, true, false), none, some 3, 5) := by decide +kernel
  obtain ⟨request, first, same⟩ := Option.map_eq_some_iff.1 seen
  simp only [view, Prod.mk.injEq, Option.isNone_iff_eq_none] at same
  obtain ⟨⟨complete, sound, plain⟩, undeclared, told, size⟩ := same
  have member : request ∈ fed.intake.queue.items := List.mem_of_head? first
  obtain ⟨raw, facts, announced, -, agree, -⟩ :=
    feedAll_toldLength limits member complete sound plain ⟨Peer.unix, "", 80⟩
  refine ⟨request, member, complete, sound, plain, told, size, undeclared, raw, facts, announced,
    ?_⟩
  by_contra unchunked
  have none := agree unchunked
  rw [undeclared, told] at none
  cases none

end Intake

end EmbeddedHttp
