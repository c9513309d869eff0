/-
# EmbeddedHttp.Proofs.Application.Lossless -- a body is handed over without loss

When an application returns its body, the code of the request task hands it over, piece by
piece, to a connection that may refuse any of the pieces.  In every dialogue with such a
connection the head comes first and once, unless it is out already; what is handed over is the
body as far as it was pulled; a refusal ends it well and an error ends it with that error; and
a length is announced only where it is the length of the body
(`Handler.perform_done_handsOver`).
-/
import EmbeddedHttp.Application.Handler
import EmbeddedHttp.Connection.Machine
import EmbeddedHttp.Proofs.Task.Dialogue

namespace EmbeddedHttp

set_option autoImplicit false

variable {Call : Type} {Answer : Call → Type}

/-! ## Bodies and their octets -/

namespace Pull

/-- The octets that a pull yields. -/
def data (pull : Pull Call) : Bytes :=
  match pull.yields with
  | .chunk data => data
  | _ => []

/-- The error that a failing pull ends its task with. -/
def error? (pull : Pull Call) : Option AppError :=
  match pull.yields with
  | .chunk _ => none
  | .failed error => some error
  | .panicked payload => some payload.toError

/-- The pieces that are worth handing over. -/
def pieces (pulls : List (Pull Call)) : List Bytes :=
  (pulls.map data).filter fun data => !data.isEmpty

theorem pieces_flatten (pulls : List (Pull Call)) :
    (pieces pulls).flatten = pulls.flatMap data := by
  rw [pieces, List.flatten_filter_not_isEmpty, List.flatMap_def]

/-- A pull that fails yields nothing. -/
theorem data_of_error {pull : Pull Call} {error : AppError} (fails : pull.error? = some error) :
    pull.data = [] := by
  unfold error? at fails
  unfold data
  split at fails
  · cases fails
  · rename_i yields
    rw [yields]
  · rename_i yields
    rw [yields]

theorem pieces_cons (pull : Pull Call) (rest : List (Pull Call)) :
    pieces (pull :: rest) =
      if pull.data.isEmpty then pieces rest else pull.data :: pieces rest := by
  cases empty : pull.data.isEmpty <;> simp [pieces, empty]

end Pull

/-- The bounds that a stream gives are bounds. -/
def ChunkStream.Honest (chunks : ChunkStream Call) : Prop :=
  chunks.hint.1 ≤ chunks.pulls.tail.length ∧
    ∀ most, chunks.hint.2 = some most → chunks.pulls.tail.length ≤ most

/-- The part of the file, as far as the file goes. -/
def FileBody.octets (part : FileBody) : Bytes :=
  (part.content.drop part.position).take part.length

namespace ResponseBody

/-- The pulls of a body. -/
def pulls : ResponseBody Call → List (Pull Call)
  | .stream chunks => chunks.pulls
  | _ => []

/-- The error of a body that fails at once. -/
def firstError? (body : ResponseBody Call) : Option AppError := body.pulls.head?.bind Pull.error?

/-- The body as far as the first pulls bring it. -/
def octets (pulled : Nat) : ResponseBody Call → Bytes
  | .empty => []
  | .full data => data
  | .stream chunks => (chunks.pulls.take pulled).flatMap Pull.data
  | .file part => part.octets

/-- A body that fails at once yields nothing with that. -/
theorem octets_of_firstError {body : ResponseBody Call} {error : AppError}
    (fails : body.firstError? = some error) : body.octets 1 = [] := by
  cases body with
  | empty | full data | file part => cases fails
  | stream chunks =>
      obtain ⟨pull, (first : chunks.pulls.head? = some pull), fails⟩ :=
        Option.bind_eq_some_iff.1 fails
      have one : chunks.pulls.take 1 = [pull] := by
        rw [List.take_one, first, Option.toList_some]
      rw [octets, one, List.flatMap_singleton, Pull.data_of_error fails]

/-- What the body says of its length is true: the bounds of a stream are bounds, and a file
has the part that is to be sent. -/
def Honest : ResponseBody Call → Prop
  | .empty | .full _ => True
  | .stream chunks => chunks.Honest
  | .file part => part.position + part.length ≤ part.content.length

end ResponseBody

/-- The octets of the body that are handed over. -/
def Emit.octets : Emit → Bytes
  | .head _ first _ => first.getD []
  | .file _ part => part.octets
  | .chunk data => data

/-! ## What is owed -/

/-- Why no body can be handed over: there is no head for it, or a file comes behind a head. -/
def StartResponse.obstacle? (start : StartResponse) (body : ResponseBody Call) : Option AppError :=
  if start.headersSent then
    match body with
    | .file _ => some (.plain "file body returned after Environ::write")
    | _ => none
  else if start.head.isNone then
    some (.plain "application returned without calling start_response")
  else none

/-- A dialogue hands a body over for a response, with so many pulls made. -/
structure HandsOver (start : StartResponse) (body : ResponseBody Call) (pulled : Nat)
    (dialogue : Dialogue Emit Call) : Prop where
  /-- The first pulls are made, and no call beside theirs. -/
  asked : dialogue.requests = (body.pulls.take pulled).flatMap (·.told)
  /-- Where there is an obstacle nothing is handed over.  A first pull that fails comes before
  the obstacle is noticed. -/
  barred : ∀ error, start.obstacle? body = some error →
    dialogue.items = [] ∧ dialogue.result = .error (body.firstError?.getD error)
  /-- Behind a head that is out there come further pieces only. -/
  behind : start.headersSent = true → ∃ chunks : List Bytes, dialogue.items = chunks.map .chunk
  /-- A head that is not out comes first, and once, unless the body fails at once. -/
  headed : start.headersSent = false → ∀ head, start.head = some head →
    if body.firstError?.isSome then dialogue.items = []
    else ∃ first length, ∃ chunks : List Bytes,
      Connection.headOf first = some (head, length) ∧
        dialogue.items = first :: chunks.map .chunk
  /-- The octets are those of the body as far as it was pulled. -/
  octets : start.obstacle? body = none →
    dialogue.items.flatMap Emit.octets = body.octets pulled
  /-- A refusal is the end, and no error. -/
  refused : ∀ before emit after,
    dialogue.lines = before ++ .hands emit (.error .cancelled) :: after →
      after = [] ∧ dialogue.result = .ok ()
  /-- So is any other error of the connection, but the task ends with it. -/
  broken : ∀ before emit error after, error ≠ .cancelled →
    dialogue.lines = before ++ .hands emit (.error error) :: after →
      after = [] ∧ dialogue.result = .error (.ofTask error)
  /-- If everything is accepted, a body fails with its first failing pull, -/
  failing : start.obstacle? body = none → dialogue.Accepted → ∀ items pull error rest,
    body.pulls = items ++ pull :: rest → (∀ item ∈ items, item.error? = none) →
    pull.error? = some error → pulled = items.length + 1 ∧ dialogue.result = .error error
  /-- and is pulled to its end if there is none. -/
  whole : start.obstacle? body = none → dialogue.Accepted →
    (∀ pull ∈ body.pulls, pull.error? = none) →
    pulled = body.pulls.length ∧ dialogue.result = .ok ()
  /-- A length that is announced is the length of what is handed over. -/
  announced : body.Honest → ∀ emit ∈ dialogue.items, ∀ head n,
    Connection.headOf emit = some (head, .known n) →
      (dialogue.items.flatMap Emit.octets).length = n

/-! ## Handing over pull by pull -/

/-- What a task ends with when its connection answers with an error. -/
def resultOf (error : TaskError) : Except AppError Unit :=
  match RequestProgram.wantsMore (.error error) with
  | .ok _ => .ok ()
  | .error error => .error error

theorem resultOf_cancelled : resultOf .cancelled = .ok () := rfl

theorem resultOf_ne {error : TaskError} (other : error ≠ .cancelled) :
    resultOf error = .error (.ofTask error) := by
  cases error with
  | cancelled => exact absurd rfl other
  | _ => rfl

/-- Nothing follows the first thing that was not accepted. -/
def Heeds (result : Except AppError Unit) : List (Line Emit Call) → Prop
  | [] => True
  | .hands _ (.error error) :: rest => rest = [] ∧ result = resultOf error
  | _ :: rest => Heeds result rest

theorem Heeds.stops {result : Except AppError Unit} {lines before after : List (Line Emit Call)}
    {emit : Emit} {error : TaskError} (heeds : Heeds result lines)
    (cut : lines = before ++ .hands emit (.error error) :: after) :
    after = [] ∧ result = resultOf error := by
  subst cut
  induction before with
  | nil => exact heeds
  | cons line before ih =>
      cases line with
      | asks request => exact ih heeds
      | hands item reply =>
          cases reply with
          | ok done => exact ih heeds
          | error other => cases List.append_eq_nil_iff.1 heeds.1 |>.2

theorem heeds_asks (result : Except AppError Unit) (calls : List Call)
    (lines : List (Line Emit Call)) :
    Heeds result (calls.map .asks ++ lines) ↔ Heeds result lines := by
  induction calls with
  | nil => rfl
  | cons request calls ih => exact ih

/-- A dialogue in which so many of the pulls were made, and all that they called for was
handed over. -/
structure Goes (pulls : List (Pull Call)) (pulled : Nat) (emits : List Emit)
    (dialogue : Dialogue Emit Call) : Prop where
  asked : dialogue.requests = (pulls.take pulled).flatMap (·.told)
  items : dialogue.items = emits
  heeds : Heeds dialogue.result dialogue.lines
  failing : dialogue.Accepted → ∀ items pull error rest, pulls = items ++ pull :: rest →
    (∀ item ∈ items, item.error? = none) → pull.error? = some error →
    pulled = items.length + 1 ∧ dialogue.result = .error error
  whole : dialogue.Accepted → (∀ pull ∈ pulls, pull.error? = none) →
    pulled = pulls.length ∧ dialogue.result = .ok ()

namespace Goes

variable {pulls rest : List (Pull Call)} {pull : Pull Call} {pulled : Nat} {emits : List Emit}
  {dialogue : Dialogue Emit Call}

theorem done : Goes ([] : List (Pull Call)) 0 [] ⟨[], .ok ()⟩ where
  asked := rfl
  items := rfl
  heeds := trivial
  failing := by simp
  whole := by simp

/-- A pull that fails is the last. -/
theorem fails {error : AppError} (fails : pull.error? = some error) :
    Goes (pull :: rest) 1 [] (Dialogue.behind ⟨[], .error error⟩ (pull.told.map .asks)) where
  asked := by
    rw [Dialogue.requests_asks, List.take_one, List.head?_cons]
    simp [Dialogue.requests]
  items := Dialogue.items_asks _ _
  heeds := (heeds_asks _ _ _).2 trivial
  failing := by
    intro accepted items failing other later split clean fault
    cases items with
    | nil =>
        obtain ⟨rfl, -⟩ := List.cons.inj split
        rw [fails] at fault
        exact ⟨rfl, congrArg Except.error (Option.some.inj fault)⟩
    | cons item items =>
        obtain ⟨rfl, -⟩ := List.cons.inj split
        rw [clean pull List.mem_cons_self] at fails
        cases fails
  whole := by
    intro accepted clean
    rw [clean pull List.mem_cons_self] at fails
    cases fails

/-- A pull that yields something comes before the others. -/
theorem behindPull (goes : Goes rest pulled emits dialogue) (yields : pull.error? = none) :
    Goes (pull :: rest) (pulled + 1) emits (dialogue.behind (pull.told.map .asks)) where
  asked := by rw [Dialogue.requests_asks, goes.asked, List.take_succ_cons, List.flatMap_cons]
  items := by rw [Dialogue.items_asks, goes.items]
  heeds := (heeds_asks _ _ _).2 goes.heeds
  failing := by
    intro accepted items failing error later split clean fault
    cases items with
    | nil =>
        obtain ⟨rfl, -⟩ := List.cons.inj split
        rw [yields] at fault
        cases fault
    | cons item items =>
        obtain ⟨-, rfl⟩ := List.cons.inj split
        obtain ⟨count, result⟩ := goes.failing (Dialogue.accepted_asks _ _ |>.1 accepted) items
          failing error later rfl (fun item member => clean item (List.mem_cons_of_mem _ member))
          fault
        exact ⟨by rw [count, List.length_cons], result⟩
  whole := by
    intro accepted clean
    obtain ⟨count, result⟩ := goes.whole (Dialogue.accepted_asks _ _ |>.1 accepted)
      fun pull member => clean pull (List.mem_cons_of_mem _ member)
    exact ⟨by rw [count, List.length_cons], result⟩

/-- What was accepted comes before the others. -/
theorem behindEmit (goes : Goes pulls pulled emits dialogue) (emit : Emit) :
    Goes pulls pulled (emit :: emits) (dialogue.behind [.hands emit (.ok ())]) where
  asked := goes.asked
  items := by simp [goes.items]
  heeds := goes.heeds
  failing := by simpa using goes.failing
  whole := by simpa using goes.whole

/-- What was refused is the last, and no more pulls are made. -/
theorem stopped (pulls : List (Pull Call)) (emit : Emit) (error : TaskError) :
    Goes pulls 0 [emit] ⟨[.hands emit (.error error)], resultOf error⟩ where
  asked := rfl
  items := rfl
  heeds := ⟨rfl, rfl⟩
  failing := by simp [Dialogue.Accepted, Line.Accepted]
  whole := by simp [Dialogue.Accepted, Line.Accepted]

end Goes

namespace RequestProgram

variable {pulls : List (Pull Call)} (partner : Partner Call Answer)

/-- Calls whose answers do not matter are made before all else. -/
theorem tell_dialogue (calls : List Call) (next : RequestProgram Call Answer) :
    ∃ later, (tell calls next).dialogue partner =
      (next.dialogue later).behind (calls.map .asks) := by
  induction calls generalizing partner with
  | nil => exact ⟨partner, rfl⟩
  | cons request calls ih =>
      obtain ⟨later, same⟩ := ih partner.answered
      refine ⟨later, ?_⟩
      rw [tell, Program.dialogue, same, Dialogue.behind_behind]
      rfl

/-- Hand something over, and go on if more is wanted. -/
def offer (emit : Emit) (more : RequestProgram Call Answer) : RequestProgram Call Answer :=
  send emit fun
    | .ok true => more
    | .ok false => .finish (.ok ())
    | .error error => .finish (.error error)

/-- Either it was accepted and the rest follows, or it was not and nothing does. -/
theorem offer_dialogue (emit : Emit) (more : RequestProgram Call Answer) :
    (offer emit more).dialogue partner =
        (more.dialogue partner.replied).behind [.hands emit (.ok ())] ∨
      ∃ error, (offer emit more).dialogue partner =
        ⟨[.hands emit (.error error)], resultOf error⟩ := by
  rw [offer, send, Program.dialogue]
  cases Program.discard (partner.reply 0) with
  | ok done => exact .inl rfl
  | error error =>
      refine .inr ⟨error, ?_⟩
      cases error <;> rfl

/-- So many of the pulls are made, and their pieces handed over behind something else. -/
def Hands (first : List Emit) (pulls : List (Pull Call)) (dialogue : Dialogue Emit Call) : Prop :=
  ∃ pulled, Goes pulls pulled (first ++ (Pull.pieces (pulls.take pulled)).map .chunk) dialogue

theorem offer_hands (emit : Emit) {more : RequestProgram Call Answer}
    (hands : ∀ partner, Hands [] pulls (more.dialogue partner)) :
    Hands [emit] pulls ((offer emit more).dialogue partner) := by
  rcases offer_dialogue partner emit more with accepted | ⟨error, stopped⟩
  · obtain ⟨pulled, goes⟩ := hands partner.replied
    rw [accepted]
    exact ⟨pulled, goes.behindEmit emit⟩
  · rw [stopped]
    exact ⟨0, Goes.stopped pulls emit error⟩

theorem sendLast_eq (emit : Emit) :
    (sendLast emit : RequestProgram Call Answer) = offer emit (.finish (.ok ())) := by
  rw [sendLast, offer]
  congr
  funext result
  rcases result with error | _ | _ <;> rfl

theorem sendLast_hands (emit : Emit) :
    Hands [emit] ([] : List (Pull Call)) ((sendLast emit).dialogue partner) := by
  rw [sendLast_eq]
  exact offer_hands partner emit fun _ => ⟨0, Goes.done⟩

theorem Hands.of_nil {first : List Emit} {dialogue : Dialogue Emit Call}
    (hands : Hands first ([] : List (Pull Call)) dialogue) : ∃ pulled,
    Goes ([] : List (Pull Call)) pulled first dialogue := by
  obtain ⟨pulled, goes⟩ := hands
  rw [List.take_nil] at goes
  exact ⟨pulled, (List.append_nil first) ▸ goes⟩

/-- End with the failure of a pull, or go on with what it yields. -/
def afterPull (goOn : Bytes → RequestProgram Call Answer) : Yield → RequestProgram Call Answer
  | .chunk data => goOn data
  | .failed error => .finish (.error error)
  | .panicked payload => .panic payload

/-- A pull is made, and then either it fails or what it yields is handed over. -/
theorem pull_dialogue (pull : Pull Call) (goOn : Bytes → RequestProgram Call Answer) :
    (∃ error, pull.error? = some error ∧
        (tell pull.told (afterPull goOn pull.yields)).dialogue partner =
          Dialogue.behind ⟨[], .error error⟩ (pull.told.map .asks)) ∨
      pull.error? = none ∧ ∃ later,
        (tell pull.told (afterPull goOn pull.yields)).dialogue partner =
          ((goOn pull.data).dialogue later).behind (pull.told.map .asks) := by
  obtain ⟨later, told⟩ := tell_dialogue partner pull.told (afterPull goOn pull.yields)
  rw [told]
  unfold Pull.error? Pull.data
  cases pull.yields with
  | failed error => exact .inl ⟨error, rfl, rfl⟩
  | panicked payload => exact .inl ⟨payload.toError, rfl, rfl⟩
  | chunk data => exact .inr ⟨rfl, later, rfl⟩

theorem sendPulls_cons (pull : Pull Call) (rest : List (Pull Call)) :
    (sendPulls (pull :: rest) : RequestProgram Call Answer) =
      tell pull.told (afterPull (fun data =>
        if data.isEmpty then sendPulls rest else offer (.chunk data) (sendPulls rest))
        pull.yields) := by
  rw [sendPulls]
  cases pull.yields <;> rfl

/-- The pulls are handed over in order, but for the empty ones. -/
theorem sendPulls_hands (pulls : List (Pull Call)) :
    Hands [] pulls ((sendPulls pulls).dialogue partner) := by
  induction pulls generalizing partner with
  | nil => exact ⟨0, Goes.done⟩
  | cons pull rest ih =>
      rw [sendPulls_cons]
      rcases pull_dialogue partner pull _ with ⟨error, fails, same⟩ | ⟨yields, later, same⟩
      · have none : Pull.pieces [pull] = [] := by
          rw [Pull.pieces_cons, Pull.data_of_error fails]
          rfl
        rw [same]
        refine ⟨1, ?_⟩
        rw [List.take_one, List.head?_cons, Option.toList_some, none]
        exact Goes.fails fails
      · rw [same]
        split
        · rename_i empty
          obtain ⟨pulled, goes⟩ := ih later
          refine ⟨pulled + 1, ?_⟩
          rw [List.take_succ_cons, Pull.pieces_cons, if_pos empty]
          exact goes.behindPull yields
        · rename_i filled
          obtain ⟨pulled, goes⟩ := offer_hands later (.chunk pull.data) ih
          refine ⟨pulled + 1, ?_⟩
          rw [List.take_succ_cons, Pull.pieces_cons, if_neg filled]
          exact goes.behindPull yields

/-! ## Handing over whole bodies -/

variable {start : StartResponse} {head : ResponseHead} {body : ResponseBody Call}

/-- A body is handed over behind its own head, which announces no other length than the body
has. -/
def Opens (head : ResponseHead) (body : ResponseBody Call) (dialogue : Dialogue Emit Call) :
    Prop :=
  ∃ pulled first length, ∃ chunks : List Bytes,
    Connection.headOf first = some (head, length) ∧
      Goes body.pulls pulled (first :: chunks.map .chunk) dialogue ∧
      first.octets ++ chunks.flatten = body.octets pulled ∧
      ∀ n, length = .known n → body.Honest → (body.octets pulled).length = n

theorem streamLength_known {hint : Nat × Option Nat} {first : Bytes} {n : Nat}
    (known : streamLength hint first = .known n) : hint = (0, some 0) ∧ first.length = n := by
  rw [streamLength] at known
  split at known
  · rename_i exhausted
    exact ⟨exhausted, BodyLength.known.inj known⟩
  · cases known

theorem sendLast_opens {first : Emit} {length : BodyLength}
    (heads : Connection.headOf first = some (head, length)) (unpulled : body.pulls = [])
    (octets : ∀ pulled, first.octets = body.octets pulled)
    (known : ∀ n, length = .known n → body.Honest → first.octets.length = n) :
    Opens head body ((sendLast first).dialogue partner) := by
  obtain ⟨pulled, goes⟩ := (sendLast_hands partner first).of_nil
  refine ⟨pulled, first, length, [], heads, ?_, ?_, ?_⟩
  · rw [unpulled]
    exact goes
  · rw [List.flatten_nil, List.append_nil]
    exact octets pulled
  · rw [← octets]
    exact known

theorem sendStream_hands (took : start.takeHead = .ok (head, { start with headersSent := true }))
    (first : Option Bytes) (length : BodyLength) (rest : List (Pull Call)) :
    Hands [.head head first length] rest
      ((sendStream start first length rest).dialogue partner) := by
  rw [sendStream, took]
  exact offer_hands partner _ fun partner => sendPulls_hands partner rest

/-- The first pull of a stream is made before its head is asked for. -/
theorem sendWhole_cons (pull : Pull Call) (rest : List (Pull Call)) (hint : Nat × Option Nat) :
    (∃ error, pull.error? = some error ∧
        (sendWhole start (.stream ⟨pull :: rest, hint⟩)).dialogue partner =
          Dialogue.behind ⟨[], .error error⟩ (pull.told.map .asks)) ∨
      pull.error? = none ∧ ∃ later : Partner Call Answer,
        (sendWhole start (.stream ⟨pull :: rest, hint⟩)).dialogue partner =
          ((sendStream start (some pull.data) (streamLength hint pull.data) rest).dialogue
            later).behind (pull.told.map .asks) := by
  have whole : (sendWhole start (.stream ⟨pull :: rest, hint⟩) : RequestProgram Call Answer) =
      tell pull.told (afterPull (fun data =>
        sendStream start (some data) (streamLength hint data) rest) pull.yields) := by
    rw [sendWhole]
    dsimp only
    cases pull.yields <;> rfl
  rw [whole]
  exact pull_dialogue partner pull _

theorem sendWhole_opens (called : start.head = some head) (sound : body.firstError? = none) :
    Opens head body ((sendWhole start body).dialogue partner) := by
  have took : start.takeHead = .ok (head, { start with headersSent := true }) := by
    rw [StartResponse.takeHead, called]
  cases body with
  | file part =>
      simp only [sendWhole, took]
      refine sendLast_opens partner rfl rfl (fun _ => rfl) ?_
      rintro n ⟨⟩ within
      rw [Emit.octets, FileBody.octets, List.length_take, List.length_drop]
      exact Nat.min_eq_left (Nat.le_sub_of_add_le' within)
  | empty =>
      simp only [sendWhole, took]
      refine sendLast_opens partner rfl rfl (fun _ => rfl) ?_
      rintro n ⟨⟩ -
      rfl
  | full data =>
      simp only [sendWhole, took]
      refine sendLast_opens partner rfl rfl (fun _ => rfl) ?_
      rintro n ⟨⟩ -
      rfl
  | stream chunks =>
      obtain ⟨pulls, hint⟩ := chunks
      cases pulls with
      | nil =>
          obtain ⟨pulled, goes⟩ :=
            (sendStream_hands partner took none (.known 0) ([] : List (Pull Call))).of_nil
          refine ⟨pulled, _, .known 0, [], rfl, goes, ?_, ?_⟩
          · simp [Emit.octets, ResponseBody.octets]
          · rintro n ⟨⟩ -
            simp [ResponseBody.octets]
      | cons pull rest =>
          rcases sendWhole_cons partner pull rest hint with
            ⟨error, fails, -⟩ | ⟨yields, later, same⟩
          · have first : pull.error? = none := sound
            rw [fails] at first
            cases first
          · obtain ⟨pulled, goes⟩ := sendStream_hands later took (some pull.data)
              (streamLength hint pull.data) rest
            refine ⟨pulled + 1, _, _, _, rfl, same ▸ goes.behindPull yields, ?_, ?_⟩
            · rw [Pull.pieces_flatten]
              rfl
            · intro n known honest
              obtain ⟨rfl, length⟩ := streamLength_known known
              have last : rest = [] := List.eq_nil_of_length_eq_zero
                (Nat.le_zero.1 (honest.2 0 rfl))
              subst last
              simpa [ResponseBody.octets] using length

/-- A body that fails at once fails before its head is asked for. -/
theorem sendWhole_fails {error : AppError} (fails : body.firstError? = some error) :
    Goes body.pulls 1 [] ((sendWhole start body).dialogue partner) := by
  cases body with
  | file part => cases fails
  | empty => cases fails
  | full data => cases fails
  | stream chunks =>
      obtain ⟨pulls, hint⟩ := chunks
      cases pulls with
      | nil => cases fails
      | cons pull rest =>
          rcases sendWhole_cons partner pull rest hint with ⟨error, fails, same⟩ | ⟨yields, -⟩
          · exact same ▸ Goes.fails fails
          · have first : pull.error? = some error := fails
            rw [yields] at first
            cases first

/-- Without a head nothing is handed over, after at most one pull. -/
theorem sendWhole_uncalled {error : AppError} (uncalled : start.takeHead = .error error) :
    (sendWhole start body).dialogue partner =
      Dialogue.behind ⟨[], .error (body.firstError?.getD error)⟩
        (((body.pulls.take 1).flatMap (·.told)).map .asks) := by
  cases body with
  | file part | empty | full data =>
      simp only [sendWhole, uncalled]
      rfl
  | stream chunks =>
      obtain ⟨pulls, hint⟩ := chunks
      cases pulls with
      | nil =>
          simp only [sendWhole, sendStream, uncalled]
          rfl
      | cons pull rest =>
          have told : ((pull :: rest).take 1).flatMap (·.told) = pull.told := by simp
          rw [ResponseBody.pulls, told]
          rcases sendWhole_cons partner pull rest hint with
            ⟨failure, fails, same⟩ | ⟨yields, later, same⟩
          · have first : (ResponseBody.stream ⟨pull :: rest, hint⟩).firstError? = some failure :=
              fails
            rw [first]
            exact same
          · have first : (ResponseBody.stream ⟨pull :: rest, hint⟩).firstError? = none := yields
            rw [same, first, sendStream, uncalled]
            rfl

/-- Behind a head that is out a body comes in pieces. -/
theorem sendRest_goes (possible : ∀ part, body ≠ .file part) :
    ∃ pulled, ∃ chunks : List Bytes,
      Goes body.pulls pulled (chunks.map .chunk) ((sendRest body).dialogue partner) ∧
        chunks.flatten = body.octets pulled := by
  cases body with
  | file part => exact absurd rfl (possible part)
  | empty => exact ⟨0, [], Goes.done, rfl⟩
  | full data =>
      obtain ⟨pulled, goes⟩ := (sendLast_hands partner (.chunk data)).of_nil
      exact ⟨pulled, [data], goes, List.flatten_singleton⟩
  | stream chunks =>
      obtain ⟨pulled, goes⟩ := sendPulls_hands partner chunks.pulls
      exact ⟨pulled, _, goes, Pull.pieces_flatten _⟩

end RequestProgram

theorem flatMap_chunks (chunks : List Bytes) :
    (chunks.map Emit.chunk).flatMap Emit.octets = chunks.flatten := by
  rw [List.flatMap_map, List.flatten_eq_flatMap]
  rfl

namespace HandsOver

variable {start : StartResponse} {body : ResponseBody Call} {pulled : Nat}
  {dialogue : Dialogue Emit Call} {emits : List Emit}

/-- Handing over goes on as far as an obstacle lets it. -/
theorem of_goes (goes : Goes body.pulls pulled emits dialogue)
    (possible : start.obstacle? body = none)
    (behind : start.headersSent = true → ∃ chunks : List Bytes, emits = chunks.map .chunk)
    (headed : start.headersSent = false → ∀ head, start.head = some head →
      if body.firstError?.isSome then emits = []
      else ∃ first length, ∃ chunks : List Bytes,
        Connection.headOf first = some (head, length) ∧ emits = first :: chunks.map .chunk)
    (octets : emits.flatMap Emit.octets = body.octets pulled)
    (announced : body.Honest → ∀ emit ∈ emits, ∀ head n,
      Connection.headOf emit = some (head, .known n) → (emits.flatMap Emit.octets).length = n) :
    HandsOver start body pulled dialogue := by
  obtain ⟨asked, rfl, heeds, failing, whole⟩ := goes
  exact {
    asked := asked
    barred := by simp [possible]
    behind := behind
    headed := headed
    octets := fun _ => octets
    refused := fun before emit after cut => resultOf_cancelled ▸ heeds.stops cut
    broken := fun before emit error after other cut =>
      resultOf_ne other ▸ heeds.stops cut
    failing := fun _ => failing
    whole := fun _ => whole
    announced := announced }

/-- Nothing is handed over where there is an obstacle. -/
theorem of_barred {error : AppError} (barred : start.obstacle? body = some error)
    (same : dialogue = Dialogue.behind ⟨[], .error (body.firstError?.getD error)⟩
      (((body.pulls.take pulled).flatMap (·.told)).map .asks)) :
    HandsOver start body pulled dialogue := by
  subst same
  have silent : Dialogue.items (Dialogue.behind ⟨[], .error (body.firstError?.getD error)⟩
      (((body.pulls.take pulled).flatMap (·.told)).map (@Line.asks Emit Call))) = [] :=
    Dialogue.items_asks _ _
  have heeds : Heeds (.error (body.firstError?.getD error))
      (((body.pulls.take pulled).flatMap (·.told)).map .asks ++ []) :=
    (heeds_asks _ _ _).2 trivial
  exact {
    asked := by
      rw [Dialogue.requests_asks]
      exact List.append_nil _
    barred := by
      rintro other same
      cases barred.symm.trans same
      exact ⟨silent, rfl⟩
    behind := fun _ => ⟨[], silent⟩
    headed := by
      intro pending head called
      simp [StartResponse.obstacle?, pending, called] at barred
    octets := by simp [barred]
    refused := fun before emit after cut => resultOf_cancelled ▸ heeds.stops cut
    broken := fun before emit error after other cut =>
      resultOf_ne other ▸ heeds.stops cut
    failing := by simp [barred]
    whole := by simp [barred]
    announced := by
      rw [silent]
      exact fun _ emit member => absurd member List.not_mem_nil }

end HandsOver

namespace Handler

/-- **A body is handed over without loss**, whatever was sent before it, and whatever the
connection replies. -/
theorem perform_done_handsOver (start : StartResponse) (body : ResponseBody Call)
    (partner : Partner Call Answer) : ∃ pulled,
    HandsOver start body pulled (((Handler.done body).perform start).dialogue partner) := by
  rw [perform]
  by_cases sent : start.headersSent = true
  · rw [if_pos sent]
    have notPending : start.headersSent ≠ false := by simp [sent]
    by_cases possible : ∀ part, body ≠ .file part
    · have clear : start.obstacle? body = none := by
        cases body <;> simp_all [StartResponse.obstacle?]
      obtain ⟨pulled, chunks, goes, octets⟩ := RequestProgram.sendRest_goes partner possible
      refine ⟨pulled, .of_goes goes clear (fun _ => ⟨chunks, rfl⟩)
        (fun pending => absurd pending notPending) ((flatMap_chunks chunks).trans octets) ?_⟩
      intro honest emit member head n known
      obtain ⟨data, -, rfl⟩ := List.mem_map.1 member
      cases known
    · obtain ⟨part, rfl⟩ := Classical.not_forall_not.1 possible
      have barred : start.obstacle? (.file part : ResponseBody Call) =
          some (.plain "file body returned after Environ::write") := by
        simp [StartResponse.obstacle?, sent]
      exact ⟨0, .of_barred barred rfl⟩
  · rw [if_neg sent]
    cases called : start.head with
    | none =>
        have uncalled : start.takeHead =
            .error (.plain "application returned without calling start_response") := by
          rw [StartResponse.takeHead, called]
        have barred : start.obstacle? body =
            some (.plain "application returned without calling start_response") := by
          simp [StartResponse.obstacle?, sent, called]
        exact ⟨1, .of_barred barred (RequestProgram.sendWhole_uncalled partner uncalled)⟩
    | some head =>
        have clear : start.obstacle? body = none := by
          simp [StartResponse.obstacle?, sent, called]
        cases fault : body.firstError? with
        | some error =>
            exact ⟨1, .of_goes (RequestProgram.sendWhole_fails partner fault) clear
              (fun out => absurd out sent) (fun _ _ _ => by simp [fault])
              (ResponseBody.octets_of_firstError fault).symm (by simp)⟩
        | none =>
            obtain ⟨pulled, first, length, chunks, heads, goes, octets, known⟩ :=
              RequestProgram.sendWhole_opens partner called fault
            have whole : (first :: chunks.map Emit.chunk).flatMap Emit.octets =
                body.octets pulled := by
              rw [List.flatMap_cons, flatMap_chunks, octets]
            refine ⟨pulled, .of_goes goes clear (fun out => absurd out sent) ?_ whole ?_⟩
            · intro _ other same
              cases called.symm.trans same
              rw [fault]
              exact ⟨first, length, chunks, heads, rfl⟩
            · intro honest emit member other n announces
              rw [whole]
              rcases List.mem_cons.1 member with rfl | later
              · cases heads.symm.trans announces
                exact known n rfl honest
              · obtain ⟨data, -, rfl⟩ := List.mem_map.1 later
                cases announces

/-- A stream of two pieces with an empty one between them, and a failure behind them. -/
def failingStream : ResponseBody Empty :=
  .stream ⟨[⟨[], .chunk (Bytes.ofAscii "one")⟩, ⟨[], .chunk []⟩,
    ⟨[], .chunk (Bytes.ofAscii "two")⟩, ⟨[], .failed (.plain "lost")⟩], (0, none)⟩

/-- Both pieces are handed over before the failure. -/
theorem perform_done_handsOver_failing :
    let start : StartResponse := ⟨some ⟨"200 OK", 200, [], none, false⟩, false⟩
    let partner : Partner Empty fun _ => Empty := ⟨fun _ request => request, fun _ => .ok none⟩
    let dialogue := ((Handler.done failingStream).perform start).dialogue partner
    dialogue.Accepted ∧ dialogue.items.flatMap Emit.octets = Bytes.ofAscii "onetwo" ∧
      dialogue.result = .error (.plain "lost") := by
  intro start partner dialogue
  have accepted : dialogue.Accepted := by
    intro line member
    have listed : dialogue.lines =
        [.hands (.head ⟨"200 OK", 200, [], none, false⟩ (some (Bytes.ofAscii "one")) .unknown)
          (.ok ()), .hands (.chunk (Bytes.ofAscii "two")) (.ok ())] := rfl
    rw [listed, List.mem_cons, List.mem_singleton] at member
    rcases member with rfl | rfl <;> rfl
  obtain ⟨pulled, handsOver⟩ := perform_done_handsOver start failingStream partner
  obtain ⟨rfl, result⟩ := handsOver.failing rfl accepted (failingStream.pulls.take 3)
    ⟨[], .failed (.plain "lost")⟩ (.plain "lost") [] rfl (by decide) rfl
  exact ⟨accepted, handsOver.octets rfl, result⟩

end Handler

end EmbeddedHttp
