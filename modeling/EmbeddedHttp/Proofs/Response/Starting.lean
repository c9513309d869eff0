/-
# EmbeddedHttp.Proofs.Response.Starting -- what becomes of a response that is being started

Whoever answers a request sets a status and headers, perhaps more than once, and somebody
asks for the head in between.  A status and headers are lawful just when a head can be built
from them (`ResponseHead.build_iff_lawful`).  Whatever is asked for, in whatever order
(`StartResponse.performAll_disciplined`):

* the pending head is the one that was set last, and what fails changes nothing;
* before the head is out, it is set without an excuse exactly when none is pending, and with
  an excuse whatever is pending, if what it is set to is lawful;
* once the head is out it stays, is handed over again each time, and cannot be set any more.

Setting a head works on a state, so what a failure leaves behind depends on the order in
which things are done.  `set` and `handOver` have that order; that they do what `call` and
`takeHead` say is `set_run` and `handOver_run`.
-/
import EmbeddedHttp.Proofs.Response.Accepting
import EmbeddedHttp.Proofs.Runs

namespace EmbeddedHttp

set_option autoImplicit false

namespace ResponseHead

/-! ## Which statuses and headers are lawful -/

/-- A status begins with a code and keeps to its line; every header fits on a line of its own,
and a length that is declared is a numeral. -/
structure Lawful (status : String) (headers : List (String × String)) : Prop where
  code : (code? (Text.trim status)).isSome = true
  line : Text.has (Text.trim status) Text.isLineEnd = false
  legal : ∀ header ∈ headers, Legal header
  declared : ∀ value ∈ valuesOf "content-length" headers, (declared? value).isSome = true

theorem checkHeader_accepts {name value : String} (legal : Legal (name, value))
    (declared : Text.sameIgnoringCase name "content-length" = true →
      (declared? value).isSome = true) (code : Nat) (sofar : Checked) :
    ∃ next, checkHeader code sofar name value = .ok next := by
  have named : (name.isEmpty || Text.has name isBarredInName) = false := by
    rw [Bool.or_eq_false_iff]
    exact ⟨legal.nonempty, legal.name⟩
  unfold checkHeader
  rw [named, legal.value]
  simp only [Bool.false_eq_true, if_false]
  split
  · exact ⟨_, rfl⟩
  split
  · exact ⟨_, rfl⟩
  split
  · rename_i isLength
    obtain ⟨n, numeral⟩ := Option.isSome_iff_exists.1 (declared isLength)
    unfold declared? at numeral
    rw [numeral]
    exact ⟨_, rfl⟩
  · exact ⟨_, rfl⟩

theorem checkHeaders_accepts {headers : List (String × String)}
    (legal : ∀ header ∈ headers, Legal header)
    (declared : ∀ value ∈ valuesOf "content-length" headers, (declared? value).isSome = true)
    (code : Nat) (sofar : Checked) :
    ∃ checked, checkHeaders code sofar headers = .ok checked := by
  induction headers generalizing sofar with
  | nil => exact ⟨sofar, rfl⟩
  | cons header rest ih =>
      rw [valuesOf_cons] at declared
      have first : Text.sameIgnoringCase header.1 "content-length" = true →
          (declared? header.2).isSome = true := by
        intro isLength
        rw [if_pos isLength] at declared
        exact declared _ List.mem_cons_self
      have others : ∀ value ∈ valuesOf "content-length" rest,
          (declared? value).isSome = true := by
        intro value member
        apply declared
        split
        · exact List.mem_cons_of_mem _ member
        · exact member
      obtain ⟨next, passed⟩ :=
        checkHeader_accepts (legal header List.mem_cons_self) first code sofar
      unfold checkHeaders
      rw [passed]
      exact ih (fun header member => legal header (List.mem_cons_of_mem _ member)) others next

/-- **A head is built exactly from a lawful status and lawful headers.** -/
theorem build_iff_lawful (status : String) (headers : List (String × String)) :
    (∃ head, build status headers = .ok head) ↔ Lawful status headers := by
  constructor
  · rintro ⟨head, accepted⟩
    have built := build_ok accepted
    have line := built.line
    have code := built.code
    rw [built.status] at line code
    exact ⟨by rw [code]; rfl, line, built.legal, built.declared⟩
  · intro lawful
    obtain ⟨code, numeral⟩ := Option.isSome_iff_exists.1 lawful.code
    obtain ⟨checked, passed⟩ :=
      checkHeaders_accepts lawful.legal lawful.declared code ⟨[], none, false⟩
    refine ⟨⟨Text.trim status, code, checked.kept.reverse, checked.contentLength,
      checked.close⟩, ?_⟩
    unfold build
    simp only [numeral, lawful.line, passed, Bool.false_eq_true, if_false]

end ResponseHead

namespace StartResponse

/-! ## The order in which things are done -/

/-- Code that works on a response being started.  What it has changed stays changed when it
fails later. -/
abbrev Edit := ExceptT AppError (StateM StartResponse)

/-- Set the status and headers: first it is seen whether they may be set, then the head is
built, and last it takes the place of the one before. -/
def set (status : String) (headers : List (String × String)) (excuse : Option AppError) :
    Edit Unit := do
  match excuse with
  | some error => if (← get).headersSent then throw error
  | none =>
      if (← get).head.isSome then
        throw (.plain "start_response called a second time without exc_info")
  let head ← liftExcept (ResponseHead.build status headers)
  modify fun start => { start with head := some head }

/-- Hand the head over: it has to be there before it counts as handed over. -/
def handOver : Edit ResponseHead := do
  match (← get).head with
  | none => throw (.plain "application returned without calling start_response")
  | some head =>
      modify fun start => { start with headersSent := true }
      return head

/-- A change that is made as a whole or not at all: a failure leaves everything as it was. -/
def wholly {α : Type} (start : StartResponse) :
    Except AppError (α × StartResponse) → Except AppError α × StartResponse
  | .error error => (.error error, start)
  | .ok (answer, next) => (.ok answer, next)

/-- **Setting a head does what `call` says**, as a whole or not at all. -/
theorem set_run (start : StartResponse) (status : String) (headers : List (String × String))
    (excuse : Option AppError) :
    (set status headers excuse).run.run start =
      wholly start ((start.call status headers excuse).map fun next => ((), next)) := by
  unfold set call
  obtain ⟨pending, sent⟩ := start
  generalize ResponseHead.build status headers = built
  -- what stands already may refuse the change, and so may the status and headers
  cases excuse with
  | some error => cases sent <;> cases built <;> rfl
  | none => cases pending <;> cases built <;> rfl

/-- **Handing a head over does what `takeHead` says**, as a whole or not at all. -/
theorem handOver_run (start : StartResponse) :
    handOver.run.run start = wholly start start.takeHead := by
  obtain ⟨pending, sent⟩ := start
  cases pending <;> rfl

/-! ## One operation -/

/-- What may be asked of a response that is being started. -/
inductive Operation where
  | set (status : String) (headers : List (String × String)) (excuse : Option AppError)
  | handOver
  deriving DecidableEq, Repr

/-- What comes of it. -/
inductive Reply where
  | accepted
  | head (head : ResponseHead)
  | refused (error : AppError)
  deriving DecidableEq, Repr

/-- A failure as a reply. -/
def Reply.of {α : Type} (told : α → Reply) : Except AppError α → Reply
  | .error error => .refused error
  | .ok answer => told answer

/-- Do what is asked, and reply. -/
def perform : Operation → StartResponse → Reply × StartResponse
  | .set status headers excuse, start =>
      let done := (set status headers excuse).run.run start
      (.of (fun _ => .accepted) done.1, done.2)
  | .handOver, start =>
      let done := handOver.run.run start
      (.of .head done.1, done.2)

section Operations

variable (start : StartResponse) (status : String) (headers : List (String × String))
  (excuse : Option AppError)

/-- A head is set to what was built, or nothing changes. -/
theorem perform_set :
    (∃ head, ResponseHead.build status headers = .ok head ∧
        perform (.set status headers excuse) start =
          (.accepted, { start with head := some head })) ∨
      ∃ error, start.call status headers excuse = .error error ∧
        perform (.set status headers excuse) start = (.refused error, start) := by
  unfold perform
  simp only [set_run]
  cases called : start.call status headers excuse with
  | error error => exact .inr ⟨error, rfl, rfl⟩
  | ok next =>
      obtain ⟨head, built, rfl⟩ := call_ok called
      exact .inl ⟨head, built, rfl⟩

/-- The pending head is handed over, or nothing changes. -/
theorem perform_handOver :
    (∃ head, start.head = some head ∧
        perform .handOver start = (.head head, { start with headersSent := true })) ∨
      start.head = none ∧ ∃ error, perform .handOver start = (.refused error, start) := by
  unfold perform
  simp only [handOver_run]
  unfold takeHead
  cases pending : start.head with
  | none => exact .inr ⟨rfl, _, rfl⟩
  | some head => exact .inl ⟨head, rfl, rfl⟩

/-- What is refused changes nothing. -/
theorem perform_refused {operation : Operation} {error : AppError}
    (refused : (perform operation start).1 = .refused error) :
    (perform operation start).2 = start := by
  cases operation with
  | set status headers excuse =>
      rcases perform_set start status headers excuse with ⟨head, -, done⟩ | ⟨error, -, done⟩
      · rw [done] at refused
        cases refused
      · rw [done]
  | handOver =>
      rcases perform_handOver start with ⟨head, -, done⟩ | ⟨-, error, done⟩
      · rw [done] at refused
        cases refused
      · rw [done]

theorem perform_set_accepted_iff :
    (perform (.set status headers excuse) start).1 = .accepted ↔
      ∃ next, start.call status headers excuse = .ok next := by
  unfold perform
  simp only [set_run]
  cases start.call status headers excuse with
  | error error => simp [Except.map, wholly, Reply.of]
  | ok next => simp [Except.map, wholly, Reply.of]

/-- Without an excuse a head is set when none is pending. -/
theorem call_unexcused_iff :
    (∃ next, start.call status headers none = .ok next) ↔
      start.head = none ∧ ResponseHead.Lawful status headers := by
  rw [← ResponseHead.build_iff_lawful]
  unfold call
  cases start.head with
  | some head => simp
  | none => cases ResponseHead.build status headers <;> simp

/-- With an excuse it is set until it is out. -/
theorem call_excused_iff (error : AppError) :
    (∃ next, start.call status headers (some error) = .ok next) ↔
      start.headersSent = false ∧ ResponseHead.Lawful status headers := by
  rw [← ResponseHead.build_iff_lawful]
  unfold call
  cases start.headersSent with
  | true => simp
  | false => cases ResponseHead.build status headers <;> simp

end Operations

/-- What one operation may do. -/
structure Disciplined (start : StartResponse) : Prop where
  /-- What is refused changes nothing. -/
  refused : ∀ operation error, (perform operation start).1 = .refused error →
    (perform operation start).2 = start
  /-- Without an excuse a head is set exactly when none is pending and it is lawful. -/
  unexcused : ∀ status headers,
    (perform (.set status headers none) start).1 = .accepted ↔
      start.head = none ∧ ResponseHead.Lawful status headers
  /-- With an excuse a head is set exactly when none is out and it is lawful. -/
  excused : ∀ status headers error,
    (perform (.set status headers (some error)) start).1 = .accepted ↔
      start.headersSent = false ∧ ResponseHead.Lawful status headers

theorem disciplined (start : StartResponse) : Disciplined start where
  refused _ _ := perform_refused start
  unexcused status headers := by
    rw [perform_set_accepted_iff, call_unexcused_iff]
  excused status headers error := by
    rw [perform_set_accepted_iff, call_excused_iff]

/-! ## A history of operations -/

/-- Do one thing after the other, and keep what was replied. -/
def performAll : List Operation → StartResponse → List (Operation × Reply) × StartResponse
  | [], start => ([], start)
  | operation :: rest, start =>
      let done := perform operation start
      let later := performAll rest done.2
      ((operation, done.1) :: later.1, later.2)

/-- The head that was built, if one was set. -/
def built? : Operation × Reply → Option ResponseHead
  | (.set status headers _, .accepted) => (ResponseHead.build status headers).toOption
  | _ => none

/-- The head that was built last. -/
def lastBuilt (history : List (Operation × Reply)) : Option ResponseHead :=
  (history.filterMap built?).getLast?

/-- One operation as a step. -/
def Moves (start : StartResponse) (exchange : Operation × Reply) (next : StartResponse) : Prop :=
  perform exchange.1 start = (exchange.2, next)

variable {start next : StartResponse} {history : List (Operation × Reply)} {head : ResponseHead}

theorem performAll_runs (operations : List Operation) (start : StartResponse) :
    Runs Moves start (performAll operations start).1 (performAll operations start).2 := by
  induction operations generalizing start with
  | nil => exact .here
  | cons operation rest ih => exact .cons rfl (ih _)

/-- What a history says about where it led. -/
structure Accounted (history : List (Operation × Reply)) (start : StartResponse) : Prop where
  head : start.head = lastBuilt history
  sent : start.headersSent = true ↔ ∃ head, (.handOver, .head head) ∈ history

/-- An exchange that changed nothing says nothing. -/
theorem Accounted.refused (accounted : Accounted history start) (operation : Operation)
    (error : AppError) : Accounted (history ++ [(operation, .refused error)]) start := by
  have silent : built? (operation, .refused error) = none := by
    cases operation <;> rfl
  constructor
  · unfold lastBuilt
    rw [told_concat, silent, Option.toList_none, List.append_nil]
    exact accounted.head
  · rw [accounted.sent]
    simp

theorem Accounted.step (accounted : Accounted history start) {exchange : Operation × Reply}
    (moved : Moves start exchange next) : Accounted (history ++ [exchange]) next := by
  obtain ⟨operation, reply⟩ := exchange
  unfold Moves at moved
  cases operation with
  | set status headers excuse =>
      rcases perform_set start status headers excuse with ⟨head, built, done⟩ | ⟨error, -, done⟩
      · rw [done] at moved
        cases moved
        have said : built? (.set status headers excuse, .accepted) = some head := by
          show (ResponseHead.build status headers).toOption = some head
          rw [built]
          rfl
        constructor
        · unfold lastBuilt
          rw [told_concat, said, Option.toList_some, List.getLast?_concat]
        · rw [accounted.sent]
          simp
      · rw [done] at moved
        cases moved
        exact accounted.refused _ error
  | handOver =>
      rcases perform_handOver start with ⟨head, pending, done⟩ | ⟨-, error, done⟩
      · rw [done] at moved
        cases moved
        have silent : built? (.handOver, .head head) = none := rfl
        constructor
        · unfold lastBuilt
          rw [told_concat, silent, Option.toList_none, List.append_nil]
          exact accounted.head
        · simp
      · rw [done] at moved
        cases moved
        exact accounted.refused _ error

theorem accounted_of_run (run : Runs Moves new history start) : Accounted history start := by
  induction run with
  | here => exact ⟨rfl, by simp [new]⟩
  | next run moved ih => exact ih.step moved

/-! ## A head that is out -/

/-- What is replied once a head is out: it is handed over again, and not set any more. -/
structure Settled (head : ResponseHead) (exchange : Operation × Reply) : Prop where
  handOver : exchange.1 = .handOver → exchange.2 = .head head
  excused : ∀ status headers error, exchange.1 = .set status headers (some error) →
    exchange.2 = .refused error
  unexcused : ∀ status headers, exchange.1 = .set status headers none →
    exchange.2 = .refused (.plain "start_response called a second time without exc_info")

/-- A head that is out stays. -/
theorem settled_step {exchange : Operation × Reply}
    (moved : Moves ⟨some head, true⟩ exchange next) :
    next = ⟨some head, true⟩ ∧ Settled head exchange := by
  obtain ⟨operation, reply⟩ := exchange
  unfold Moves at moved
  cases operation with
  | set status headers excuse =>
      cases excuse with
      | some error =>
          have done : perform (.set status headers (some error)) ⟨some head, true⟩ =
              (.refused error, ⟨some head, true⟩) := rfl
          rw [done] at moved
          cases moved
          refine ⟨rfl, nofun, ?_, nofun⟩
          rintro _ _ _ ⟨⟩
          rfl
      | none =>
          have done : perform (.set status headers none) ⟨some head, true⟩ =
              (.refused (.plain "start_response called a second time without exc_info"),
                ⟨some head, true⟩) := rfl
          rw [done] at moved
          cases moved
          exact ⟨rfl, nofun, nofun, fun _ _ _ => rfl⟩
  | handOver =>
      have done : perform .handOver ⟨some head, true⟩ = (.head head, ⟨some head, true⟩) := rfl
      rw [done] at moved
      cases moved
      exact ⟨rfl, fun _ => rfl, nofun, nofun⟩

theorem settled_of_run (run : Runs Moves ⟨some head, true⟩ history next) :
    next = ⟨some head, true⟩ ∧ ∀ exchange ∈ history, Settled head exchange := by
  induction run with
  | here => exact ⟨rfl, by simp⟩
  | next run moved ih =>
      obtain ⟨rfl, before⟩ := ih
      obtain ⟨same, last⟩ := settled_step moved
      refine ⟨same, fun exchange member => ?_⟩
      rcases List.mem_append.1 member with earlier | here
      · exact before exchange earlier
      · rw [List.mem_singleton.1 here]
        exact last

/-- **The pending head is the one that was set last, and once it is out it stays.**  Whatever is
asked of a response that is being started, what is refused changes nothing; a head is set
without an excuse exactly when none is pending, and with one exactly when none is out, and only
to what is lawful; behind the first head that is handed over it is handed over again each time,
an excuse comes back as the error, and without one nothing is set. -/
theorem performAll_disciplined (operations : List Operation) :
    let done := performAll operations new
    done.2.head = lastBuilt done.1 ∧
      (done.2.headersSent = true ↔ ∃ head, (.handOver, .head head) ∈ done.1) ∧
      Disciplined done.2 ∧
      ∀ earlier head later, done.1 = earlier ++ (.handOver, .head head) :: later →
        done.2 = ⟨some head, true⟩ ∧ ∀ exchange ∈ later, Settled head exchange := by
  intro done
  have run : Runs Moves new done.1 done.2 := performAll_runs operations new
  have accounted := accounted_of_run run
  refine ⟨accounted.head, accounted.sent, disciplined done.2, ?_⟩
  intro earlier head later parts
  rw [parts] at run
  obtain ⟨before, -, rest⟩ := run.split
  obtain ⟨out, handed, behind⟩ := rest.cons_inv
  -- what was handed over had been pending, and it is what stays
  rcases perform_handOver before with ⟨same, pending, did⟩ | ⟨-, error, did⟩
  · unfold Moves at handed
    rw [did] at handed
    cases handed
    rw [show ({ before with headersSent := true } : StartResponse) = ⟨some head, true⟩ by
      rw [pending]] at behind
    exact settled_of_run behind
  · unfold Moves at handed
    rw [did] at handed
    cases handed

/-- A head that is pending outlives a failed replacement, and what is out outlives an excuse. -/
example :
    (performAll [.set "200 OK" [] none, .set "2000" [] (some (.plain "late")), .handOver,
      .set "500 Error" [] (some (.plain "late")), .handOver] new).1.map (·.2) =
        [.accepted, .refused (.plain "invalid status line \"2000\""),
          .head ⟨"200 OK", 200, [], none, false⟩, .refused (.plain "late"),
          .head ⟨"200 OK", 200, [], none, false⟩] := by
  decide +kernel

end StartResponse

end EmbeddedHttp
