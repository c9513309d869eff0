/-
# EmbeddedHttp.Proofs.Request.CheckedAssembly -- the numbers computed while requests are assembled

Requests are assembled with 64-bit numbers, and a number that leaves their range stops
everything.  Here every sum, every difference and every clamp is checked on the way
(`Assembly.checkedListener`): in making buffers and in writing to them, in counting what came of
a body and in asking whether it still fits into memory.  What comes of a stream is the same
(`agrees_deliver`), so no number leaves its range but where an overflow is told.

The invariant is `Assembly.Counted`, over the request being received: its buffers are in use and
small, the body in memory is too, and of the body no more is held than came and than the limit
allows.  So an overflow takes the greatest limit, under which no body in memory can be made, or
a sum of what came that is beyond the range (`Config.assembles_inRange`).
-/
import EmbeddedHttp.Proofs.Message.Sizes
import EmbeddedHttp.Proofs.Request.Admitting
import EmbeddedHttp.Proofs.Request.Truncating
import EmbeddedHttp.Server.Setup

namespace EmbeddedHttp

set_option autoImplicit false

/-! ## Bodies with checked numbers -/

namespace Body

/-- `forLength?`, computed in 64-bit numbers. -/
def opened? (declared : Option Nat) (threshold limit : Nat) : Option Body :=
  match declared with
  | some length =>
      if threshold < length then some (.spooled [])
      else (Buffer.new? length limit).map Body.memory
  | none => (Buffer.new? initialRoom limit).map Body.memory

/-- `spill`, computed in 64-bit numbers. -/
def spill? (body : Body) (more threshold : Nat) : Option Body :=
  match body with
  | .memory buffer => do
      let passing ← Word.sum? buffer.size more
      some (if threshold < passing then .spooled buffer.data else .memory buffer)
  | .spooled content => some (.spooled content)

/-- `write`, computed in 64-bit numbers; a spooled body counts its octets. -/
def write? (body : Body) (data : Bytes) (threshold : Nat) : Option (Body × Option IoFault) := do
  match ← body.spill? data.length threshold with
  | .memory buffer => do
      let written ← buffer.write? data
      some (.memory written.1, written.2.map fun _ => IoFault.bodyOverLimit)
  | .spooled content => do
      let _ ← Word.sum? content.length data.length
      some (.spooled (content ++ data), none)

theorem opened?_eq (declared : Option Nat) (threshold limit : Nat) :
    opened? declared threshold limit = forLength? declared threshold limit := by
  have inMemory : ∀ room, (Buffer.new? room limit).map Body.memory =
      if limit + 1 < Bytes.wordBound then some (Body.memory (Buffer.new room limit)) else none := by
    intro room
    rw [Buffer.new?_eq]
    split <;> rfl
  cases declared with
  | none => exact inMemory _
  | some length =>
      simp only [opened?, forLength?]
      split
      · rfl
      · exact inMemory _

variable {body : Body} {limit threshold : Nat} {data : Bytes}

/-- What holds of a body in use: in memory, a capacity of one more than the limit is in range. -/
def Sound (limit : Nat) : Body → Prop
  | .memory buffer =>
      buffer.Sound ∧ buffer.limit + 1 < Bytes.wordBound ∧ limit + 1 < Bytes.wordBound
  | .spooled _ => True

theorem sound_forLength? {declared : Option Nat}
    (made : forLength? declared threshold limit = some body) : body.Sound limit := by
  have default : Buffer.defaultLimit + 1 < Bytes.wordBound := by decide
  have inMemory : ∀ room, (if limit + 1 < Bytes.wordBound
      then some (Body.memory (Buffer.new room limit)) else none) = some body →
      body.Sound limit := by
    intro room made
    split at made
    · rename_i word
      cases made
      refine ⟨Buffer.sound_new room limit, ?_, word⟩
      show (if limit = 0 then Buffer.defaultLimit else limit) + 1 < Bytes.wordBound
      split
      · exact default
      · exact word
    · cases made
  cases declared with
  | none => exact inMemory _ made
  | some length =>
      simp only [forLength?] at made
      split at made
      · cases made
        trivial
      · exact inMemory _ made

/-- **What keeps within the limit is written without a number out of range.** -/
theorem Sound.write?_eq (sound : body.Sound limit) (fits : body.size + data.length ≤ limit)
    (word : limit < Bytes.wordBound) (threshold : Nat) :
    body.write? data threshold = some (body.write data threshold) := by
  have counted : Word.sum? body.content.length data.length = some (body.size + data.length) :=
    Word.sum?_of_lt (Nat.lt_of_le_of_lt fits word)
  cases body with
  | spooled content =>
      simp only [write?, spill?, write, spill, Option.bind_eq_bind, Option.bind_some]
      rw [show Word.sum? content.length data.length = _ from counted]
      rfl
  | memory buffer =>
      obtain ⟨inUse, room, beyond⟩ := sound
      replace counted : Word.sum? buffer.data.length data.length =
        some (buffer.size + data.length) := counted
      replace fits : buffer.size + data.length ≤ limit := fits
      have written : buffer.write? data = some (buffer.write data) := by
        rw [inUse.write?_eq room, if_pos (by omega)]
      simp only [write?, spill?, write, spill, Buffer.size, counted, Option.bind_eq_bind,
        Option.bind_some]
      by_cases passes : threshold < buffer.data.length + data.length
      · simp only [passes, if_true, counted, Option.bind_some]
      · simp only [passes, if_false, written, Option.bind_some]
        rcases buffer.write data with ⟨next, none | excess⟩ <;> rfl

theorem Sound.write (sound : body.Sound limit) (data : Bytes) (threshold : Nat) :
    (body.write data threshold).1.Sound limit := by
  cases body with
  | spooled content => trivial
  | memory buffer =>
      obtain ⟨inUse, room, word⟩ := sound
      have still := inUse.write data
      have same := inUse.write_limit data
      by_cases passes : threshold < buffer.size + data.length
      · simp only [Body.write, spill, if_pos passes]
        trivial
      · simp only [Body.write, spill, if_neg passes]
        rcases written : buffer.write data with ⟨next, none | excess⟩ <;>
          rw [written] at still same <;> exact ⟨still, same ▸ room, word⟩

/-- No more is held than what was written. -/
theorem write_size_le (body : Body) (data : Bytes) (threshold : Nat) :
    (body.write data threshold).1.size ≤ body.size + data.length := by
  have kept := spill_content body data.length threshold
  rw [size, size, ← kept]
  cases spilled : body.spill data.length threshold with
  | spooled held =>
      simp only [write, spilled, content, List.length_append]
      exact Nat.le_refl _
  | memory buffer =>
      have stored : (buffer.write data).1.data.length ≤ buffer.data.length + data.length := by
        simp only [Buffer.write]
        split
        · exact Nat.le_of_eq List.length_append
        · rw [List.length_append, List.length_take]
          omega
      simp only [write, spilled]
      rcases written : buffer.write data with ⟨next, none | excess⟩ <;>
        rw [written] at stored <;> exact stored

end Body

/-- An empty draft, computed in 64-bit numbers. -/
def Draft.empty? : Option Draft := do
  let target ← Buffer.new? 256 Draft.targetLimit
  let name ← Buffer.new? 64 Draft.fieldLimit
  let value ← Buffer.new? 128 Draft.fieldLimit
  some ⟨target, name, value, .none⟩

theorem Draft.empty?_eq : Draft.empty? = some Draft.empty := by
  have target : targetLimit + 1 < Bytes.wordBound := by decide
  have field : fieldLimit + 1 < Bytes.wordBound := by decide
  simp only [empty?, Buffer.new?_eq, if_pos target, if_pos field]
  rfl

/-! ## The listener with checked numbers -/

namespace Assembly

/-- Go on with what was computed, if its numbers kept within their range. -/
def unlessOverflow {α : Type} (request : Request) (computed : Option α) (next : α → Change) :
    Change :=
  match computed with
  | some result => next result
  | none => (some .overflow, request)

/-- `addTarget`, computed in 64-bit numbers. -/
def addTarget? (bytes : Bytes) (request : Request) : Change :=
  unlessOverflow request (request.draft.target.write? bytes) fun written =>
    unlessExcess written.2 { request with draft := { request.draft with target := written.1 } }

/-- `addName`, computed in 64-bit numbers. -/
def addName? (bytes : Bytes) (request : Request) : Change :=
  andThen (storeField request) fun request =>
    unlessOverflow request (request.draft.name.write? bytes) fun written =>
      unlessExcess written.2
        { request with draft := { request.draft with name := written.1, last := .name } }

/-- `addValue`, computed in 64-bit numbers. -/
def addValue? (bytes : Bytes) (request : Request) : Change :=
  if request.draft.last = .none then refuse .badRequest request
  else
    unlessOverflow request (request.draft.value.write? bytes) fun written =>
      unlessExcess written.2
        { request with draft := { request.draft with value := written.1, last := .value } }

/-- `openBody`, computed in 64-bit numbers. -/
def openBody? (limits : Limits) (declared : Option Nat) (request : Request) : Change :=
  unlessOverflow request
    (Body.opened? declared limits.spoolThreshold limits.maxContentLength) fun body =>
      accept { request with body := some body }

/-- `admitFraming`, computed in 64-bit numbers. -/
def admitFraming? (limits : Limits) (facts : HeadFacts) (request : Request) : Change :=
  match facts.framing with
  | .length n =>
      if limits.maxContentLength < n then refuse .payloadTooLarge request
      else
        let request := { request with declaredLength := some n }
        if n = 0 then accept request else openBody? limits (some n) request
  | .none =>
      if request.method.requiresLength && !facts.upgrade then refuse .lengthRequired request
      else accept request
  | .chunked => accept request

/-- `completeHead`, computed in 64-bit numbers. -/
def completeHead? (limits : Limits) (facts : HeadFacts) (request : Request) : Change :=
  andThen (storeField request) fun request =>
    andThen (describe limits facts request) fun request =>
      andThen (checkHandshake facts request) fun request =>
        andThen (noteExpectation facts request) fun request =>
          admitFraming? limits facts request

/-- How much of its body a request holds. -/
def received (request : Request) : Nat := (request.body.map (·.size)).getD 0

/-- What becomes of a request with what was written of its body. -/
def storeBody (request : Request) (written : Body × Option IoFault) : Change :=
  match written with
  | (body, none) => accept { request with body := some body }
  | (body, some _) => refuse .internalServerError { request with body := some body }

/-- A fragment is written to the body that there is, computed in 64-bit numbers. -/
def writeBody? (limits : Limits) (bytes : Bytes) (request : Request) : Change :=
  match request.body with
  | none => accept request
  | some body =>
      unlessOverflow request (body.write? bytes limits.spoolThreshold) (storeBody request)

/-- `addBody`, computed in 64-bit numbers. -/
def addBody? (limits : Limits) (bytes : Bytes) (request : Request) : Change :=
  if bytes.isEmpty then accept request
  else
    let request := { request with expectContinue := false }
    unlessOverflow request (Word.sum? (received request) bytes.length) fun received =>
      if limits.maxContentLength < received then refuse .payloadTooLarge request
      else
        andThen
          (match request.body with
            | some _ => accept request
            | none => openBody? limits none request)
          (writeBody? limits bytes)

/-- The listener that builds requests, with every number checked. -/
def checkedListener (limits : Limits) : Listener RequestQueue
  | .begin, queue =>
      match Draft.empty? with
      | some draft => (none, queue.push { Request.new with draft := draft })
      | none => (some .overflow, queue)
  | .target bytes, queue => changeLast (addTarget? bytes) queue
  | .fieldName bytes, queue => changeLast (addName? bytes) queue
  | .fieldValue bytes, queue => changeLast (addValue? bytes) queue
  | .head facts, queue => changeLast (completeHead? limits facts) queue
  | .body bytes, queue =>
      if bytes.isEmpty then (none, queue) else changeLast (addBody? limits bytes) queue
  | .complete, queue => changeLast (fun request => accept { request with complete := true }) queue

end Assembly

/-! ## Requests being received -/

namespace Buffer

variable {buffer : Buffer} {bytes : Bytes}

/-- A buffer of a draft is in use, and no larger than a head may be. -/
structure InDraft (buffer : Buffer) : Prop where
  sound : buffer.Sound
  limit : buffer.limit ≤ Head.maxSize

theorem InDraft.clear (inDraft : buffer.InDraft) : buffer.clear.InDraft :=
  ⟨inDraft.sound.clear, inDraft.limit⟩

theorem InDraft.write (inDraft : buffer.InDraft) (bytes : Bytes) :
    (buffer.write bytes).1.InDraft := by
  refine ⟨inDraft.sound.write bytes, ?_⟩
  rw [inDraft.sound.write_limit]
  exact inDraft.limit

/-- What a head tells is written without a number out of range. -/
theorem InDraft.write?_eq (inDraft : buffer.InDraft) (fits : bytes.length ≤ Head.maxSize) :
    buffer.write? bytes = some (buffer.write bytes) := by
  have small : Head.maxSize + Head.maxSize + 1 < Bytes.wordBound := by decide
  have := inDraft.limit
  have := inDraft.sound.size_le
  rw [inDraft.sound.write?_eq (by omega), if_pos (by omega)]

end Buffer

/-- The buffers of a draft that is being gathered. -/
structure Draft.Gathering (draft : Draft) : Prop where
  target : draft.target.InDraft
  name : draft.name.InDraft
  value : draft.value.InDraft

theorem Draft.gathering_empty : Draft.empty.Gathering := by
  have small : 8 * 1024 ≤ Head.maxSize := by decide
  have inDraft : ∀ capacity, (Buffer.new capacity (8 * 1024)).InDraft := fun capacity =>
    ⟨Buffer.sound_new _ _, small⟩
  exact ⟨inDraft _, inDraft _, inDraft _⟩

namespace Assembly

variable {limits : Limits} {facts : HeadFacts} {came more : Nat} {bytes : Bytes}
  {request next : Request}

/-- What holds of a request that is being received, when `came` octets of bodies were told: its
buffers are in use, and of its body it holds no more than came and than the limit allows. -/
structure Counted (limits : Limits) (came : Nat) (request : Request) : Prop where
  draft : request.draft.Gathering
  body : ∀ body, request.body = some body → body.Sound limits.maxContentLength
  within : received request ≤ limits.maxContentLength
  came : received request ≤ came

theorem counted_new (limits : Limits) (came : Nat) : Counted limits came Request.new :=
  ⟨Draft.gathering_empty, nofun, Nat.zero_le _, Nat.zero_le _⟩

/-- What is no part of the draft or the body does not matter. -/
theorem Counted.congr (counted : Counted limits came request) (draft : next.draft.Gathering)
    (body : next.body = request.body) : Counted limits came next := by
  refine ⟨draft, ?_, ?_, ?_⟩
  · rw [body]
    exact counted.body
  all_goals rw [received, body]
  · exact counted.within
  · exact counted.came

theorem Counted.mono {later : Nat} (counted : Counted limits came request) (le : came ≤ later) :
    Counted limits later request :=
  ⟨counted.draft, counted.body, counted.within, Nat.le_trans counted.came le⟩

/-- What it takes for a number to leave its range: the greatest limit, or `more` octets behind
those that came, beyond the range as well as behind all that are allowed. -/
def Beyond (limits : Limits) (came more : Nat) : Prop :=
  Bytes.wordBound ≤ limits.maxContentLength + 1 ∨
    Bytes.wordBound ≤ limits.maxContentLength + more ∧ Bytes.wordBound ≤ came + more

/-- Computed in 64-bit numbers it comes to the same, to something good if it is accepted, and to
an overflow only with a cause. -/
structure Agrees {α : Type} (good : α → Prop) (cause : Prop) (checked done : Option Refusal × α) :
    Prop where
  same : checked = done
  good : done.1 = none → good done.2
  overflow : done.1 = some .overflow → cause

section Agreement

variable {α : Type} {good : α → Prop} {cause : Prop}

theorem Agrees.accept {state : α} (holds : good state) :
    Agrees good cause (none, state) (none, state) :=
  ⟨rfl, fun _ => holds, nofun⟩

theorem Agrees.refused {refusal : Refusal} {state : α}
    (overflow : some refusal = some .overflow → cause) :
    Agrees good cause (some refusal, state) (some refusal, state) :=
  ⟨rfl, nofun, overflow⟩

theorem Agrees.refuse (status : Status) (state : α) :
    Agrees good cause (some (.status status), state) (some (.status status), state) :=
  .refused nofun

theorem Agrees.stop (state : α) (holds : cause) :
    Agrees good cause (some .overflow, state) (some .overflow, state) :=
  .refused fun _ => holds

theorem Agrees.imp {better : α → Prop} {checked done : Option Refusal × α}
    (agrees : Agrees better cause checked done) (implies : ∀ state, better state → good state) :
    Agrees good cause checked done :=
  ⟨agrees.same, fun accepted => implies _ (agrees.good accepted), agrees.overflow⟩

theorem Agrees.andThen {first : Request → Prop} {good : Request → Prop} {checked done : Change}
    {checkedNext doneNext : Request → Change} (here : Agrees first cause checked done)
    (later : ∀ next, first next → Agrees good cause (checkedNext next) (doneNext next)) :
    Agrees good cause (Assembly.andThen checked checkedNext) (Assembly.andThen done doneNext) := by
  obtain ⟨rfl, holds, overflow⟩ := here
  obtain ⟨refusal | refusal, next⟩ := checked
  · exact later next (holds rfl)
  · exact .refused overflow

end Agreement

/-! ## Heads -/

theorem agrees_unlessExcess (excess : Option Nat) (holds : Counted limits came next)
    {cause : Prop} :
    Agrees (Counted limits came) cause (unlessExcess excess next) (unlessExcess excess next) := by
  rw [unlessExcess]
  split
  · exact .refuse _ _
  · exact .accept holds

theorem agrees_storeField (counted : Counted limits came request) (cause : Prop) :
    Agrees (Counted limits came) cause (storeField request) (storeField request) := by
  rw [storeField]
  split
  · split
    · exact .refuse _ _
    · exact .accept (counted.congr
        ⟨counted.draft.target, counted.draft.name.clear, counted.draft.value.clear⟩ rfl)
  · exact .accept counted

theorem agrees_addTarget (counted : Counted limits came request)
    (fits : bytes.length ≤ Head.maxSize) (cause : Prop) :
    Agrees (Counted limits came) cause (addTarget? bytes request) (addTarget bytes request) := by
  obtain ⟨target, name, value⟩ := counted.draft
  have written : Draft.Gathering
      { request.draft with target := (request.draft.target.write bytes).1 } :=
    ⟨target.write bytes, name, value⟩
  rw [addTarget?, addTarget, target.write?_eq fits]
  apply agrees_unlessExcess
  exact counted.congr written rfl

theorem agrees_addName (counted : Counted limits came request)
    (fits : bytes.length ≤ Head.maxSize) (cause : Prop) :
    Agrees (Counted limits came) cause (addName? bytes request) (addName bytes request) := by
  refine (agrees_storeField counted cause).andThen fun stored counted => ?_
  obtain ⟨target, name, value⟩ := counted.draft
  have written : Draft.Gathering
      { stored.draft with name := (stored.draft.name.write bytes).1, last := .name } :=
    ⟨target, name.write bytes, value⟩
  rw [name.write?_eq fits]
  apply agrees_unlessExcess
  exact counted.congr written rfl

theorem agrees_addValue (counted : Counted limits came request)
    (fits : bytes.length ≤ Head.maxSize) (cause : Prop) :
    Agrees (Counted limits came) cause (addValue? bytes request) (addValue bytes request) := by
  obtain ⟨target, name, value⟩ := counted.draft
  have written : Draft.Gathering
      { request.draft with value := (request.draft.value.write bytes).1, last := .value } :=
    ⟨target, name, value.write bytes⟩
  rw [addValue?, addValue, value.write?_eq fits]
  split
  · exact .refuse _ _
  · apply agrees_unlessExcess
    exact counted.congr written rfl

theorem openBody?_eq (declared : Option Nat) :
    openBody? limits declared request = openBody limits declared request := by
  rw [openBody?, Body.opened?_eq, openBody]
  cases Body.forLength? declared limits.spoolThreshold limits.maxContentLength <;> rfl

/-- A place for a body is in range unless the limit is the greatest number. -/
theorem agrees_openBody (draft : request.draft.Gathering) (declared : Option Nat) :
    Agrees (Counted limits 0) (Beyond limits came more) (openBody limits declared request)
      (openBody limits declared request) := by
  rw [openBody]
  cases made : Body.forLength? declared limits.spoolThreshold limits.maxContentLength with
  | none => exact .stop _ (.inl (Body.forLength?_eq_none.1 made).1)
  | some body =>
      have nothing : received { request with body := some body } = 0 := by
        simp [received, Body.size, (Body.forLength?_room made).1]
      refine .accept ⟨draft, ?_, by omega, by omega⟩
      rintro _ ⟨⟩
      exact Body.sound_forLength? made

/-- Describing a request says nothing of its draft and its body. -/
theorem agrees_describe (counted : Counted limits came request) (cause : Prop) :
    Agrees (Counted limits came) cause (describe limits facts request)
      (describe limits facts request) := by
  rw [describe]
  split
  · exact .refuse _ _
  · exact .accept (counted.congr counted.draft rfl)

theorem agrees_checkHandshake (counted : Counted limits came request) (cause : Prop) :
    Agrees (Counted limits came) cause (checkHandshake facts request)
      (checkHandshake facts request) := by
  rw [checkHandshake]
  split
  · exact .refuse _ _
  · exact .accept counted

theorem agrees_noteExpectation (counted : Counted limits came request) (cause : Prop) :
    Agrees (Counted limits came) cause (noteExpectation facts request)
      (noteExpectation facts request) := by
  rw [noteExpectation]
  split
  · split
    · exact .accept (counted.congr counted.draft rfl)
    · exact .refuse _ _
  · exact .accept counted

theorem agrees_admitFraming (counted : Counted limits came request) :
    Agrees (Counted limits came) (Beyond limits came more) (admitFraming? limits facts request)
      (admitFraming limits facts request) := by
  have same : admitFraming? limits facts request = admitFraming limits facts request := by
    simp only [admitFraming?, openBody?_eq]
    rfl
  rw [same, admitFraming]
  split
  · split
    · exact .refuse _ _
    · dsimp only
      split
      · exact .accept (counted.congr counted.draft rfl)
      · refine Agrees.imp (agrees_openBody ?_ _) fun next empty => empty.mono (Nat.zero_le _)
        exact counted.draft
  · split
    · exact .refuse _ _
    · exact .accept counted
  · exact .accept counted

theorem agrees_completeHead (counted : Counted limits came request) :
    Agrees (Counted limits came) (Beyond limits came more) (completeHead? limits facts request)
      (completeHead limits facts request) :=
  (agrees_storeField counted _).andThen fun _ counted =>
    (agrees_describe counted _).andThen fun _ counted =>
      (agrees_checkHandshake counted _).andThen fun _ counted =>
        (agrees_noteExpectation counted _).andThen fun _ counted =>
          agrees_admitFraming counted

/-! ## Bodies -/

/-- The unchecked form of `writeBody?`. -/
def writeBody (limits : Limits) (bytes : Bytes) (request : Request) : Change :=
  match request.body with
  | none => accept request
  | some body => storeBody request (body.write bytes limits.spoolThreshold)

theorem addBody_writeBody (limits : Limits) (bytes : Bytes) (request : Request) :
    addBody limits bytes request =
      if bytes.isEmpty then accept request
      else
        let request := { request with expectContinue := false }
        if Bytes.wordBound ≤ received request + bytes.length then (some .overflow, request)
        else if limits.maxContentLength < received request + bytes.length then
          refuse .payloadTooLarge request
        else
          andThen
            (match request.body with
              | some _ => accept request
              | none => openBody limits none request)
            (writeBody limits bytes) := rfl

/-- A fragment that is allowed is written without a number out of range. -/
theorem agrees_writeBody {held : Nat} (counted : Counted limits held request)
    (word : limits.maxContentLength < Bytes.wordBound)
    (fits : held + bytes.length ≤ limits.maxContentLength) (cause : Prop) :
    Agrees (Counted limits (held + bytes.length)) cause (writeBody? limits bytes request)
      (writeBody limits bytes request) := by
  have came := counted.came
  rw [writeBody?, writeBody]
  cases present : request.body with
  | none => exact .accept (counted.mono (Nat.le_add_right _ _))
  | some body =>
      have before : received request = body.size := by
        rw [received, present]
        rfl
      have sound := counted.body body present
      have size := Body.write_size_le body bytes limits.spoolThreshold
      have still := sound.write bytes limits.spoolThreshold
      have checked : body.write? bytes limits.spoolThreshold =
          some (body.write bytes limits.spoolThreshold) := sound.write?_eq (by omega) word _
      dsimp only
      rw [checked]
      rcases written : body.write bytes limits.spoolThreshold with ⟨next, none | fault⟩
      · rw [written] at size still
        have stored : next.size ≤ held + bytes.length := by
          refine Nat.le_trans size ?_
          omega
        refine .accept ⟨counted.draft, ?_, Nat.le_trans stored fits, stored⟩
        rintro _ ⟨⟩
        exact still
      · exact .refuse _ _

/-- **A fragment of a body is counted and stored without a number out of range**, but for the
greatest limit and for sums of what came. -/
theorem agrees_addBody (counted : Counted limits came request)
    (word : limits.maxContentLength < Bytes.wordBound) :
    Agrees (Counted limits (came + bytes.length)) (Beyond limits came bytes.length)
      (addBody? limits bytes request) (addBody limits bytes request) := by
  rw [addBody?, addBody_writeBody]
  split
  · exact .accept (counted.mono (Nat.le_add_right _ _))
  have settled : Counted limits came { request with expectContinue := false } :=
    counted.congr counted.draft rfl
  have body : ({ request with expectContinue := false } : Request).body = request.body := rfl
  dsimp only
  rw [← body]
  generalize ({ request with expectContinue := false } : Request) = request at settled ⊢
  have within := settled.within
  have fewer := settled.came
  by_cases beyond : Bytes.wordBound ≤ received request + bytes.length
  · rw [Word.sum?_of_le beyond, if_pos beyond]
    exact .stop _ (.inr ⟨by omega, by omega⟩)
  rw [Word.sum?_of_lt (Nat.not_le.1 beyond), if_neg beyond, unlessOverflow]
  by_cases large : limits.maxContentLength < received request + bytes.length
  · rw [if_pos large, if_pos large]
    exact .refuse _ _
  rw [if_neg large, if_neg large]
  refine .andThen (?_ : Agrees (Counted limits (received request)) _ _ _) fun next counted => ?_
  · cases present : request.body with
    | some body =>
        have here : Counted limits (received request) request :=
          ⟨settled.draft, settled.body, within, Nat.le_refl _⟩
        exact .accept here
    | none =>
        have nothing : received request = 0 := by
          rw [received, present]
          rfl
        dsimp only
        rw [openBody?_eq, nothing]
        apply agrees_openBody
        exact settled.draft
  · refine (agrees_writeBody counted word (by omega) _).imp fun last held => held.mono ?_
    omega

/-! ## Events -/

/-- What holds of the requests of a stream: of the last one, that it is being received. -/
def Receiving (limits : Limits) (came : Nat) (queue : RequestQueue) : Prop :=
  ∀ request, queue.items.getLast? = some request → Counted limits came request

theorem Receiving.push (front : RequestQueue) (counted : Counted limits came request) :
    Receiving limits came (front.push request) := by
  intro last found
  rw [RequestQueue.getLast?_push] at found
  cases found
  exact counted

theorem agrees_changeLast {later : Nat} {cause : Prop} {checked done : Request → Change}
    {queue : RequestQueue} (receiving : Receiving limits came queue)
    (changes : ∀ request, Counted limits came request →
      Agrees (Counted limits later) cause (checked request) (done request)) :
    Agrees (Receiving limits later) cause (changeLast checked queue) (changeLast done queue) := by
  rcases queue.empty_or_push with empty | ⟨front, last, rfl⟩
  · simp only [changeLast, empty, List.getLast?_nil]
    exact .refuse _ _
  · obtain ⟨same, good, overflow⟩ :=
      changes last (receiving last (RequestQueue.getLast?_push front last))
    rw [changeLast_push, changeLast_push, same]
    exact ⟨rfl, fun accepted => .push front (good accepted), overflow⟩

/-- **An event is listened to without a number out of range**, but for the greatest limit and for
sums of what came. -/
theorem agrees_listener {queue : RequestQueue} {event : Event}
    (receiving : Receiving limits came queue) (word : limits.maxContentLength < Bytes.wordBound)
    (fits : event.Within Head.maxSize) :
    Agrees (Receiving limits (came + event.bodySize)) (Beyond limits came event.bodySize)
      (checkedListener limits event queue) (listener limits event queue) := by
  cases event with
  | begin =>
      rw [checkedListener, Draft.empty?_eq]
      exact .accept (.push queue (counted_new limits _))
  | target bytes =>
      exact agrees_changeLast receiving fun _ counted => agrees_addTarget counted fits _
  | fieldName bytes =>
      exact agrees_changeLast receiving fun _ counted => agrees_addName counted fits _
  | fieldValue bytes =>
      exact agrees_changeLast receiving fun _ counted => agrees_addValue counted fits _
  | head facts => exact agrees_changeLast receiving fun _ counted => agrees_completeHead counted
  | body bytes =>
      rw [checkedListener, listener]
      split
      · exact .accept fun last found => (receiving last found).mono (Nat.le_add_right _ _)
      · exact agrees_changeLast receiving fun _ counted => agrees_addBody counted word
  | complete =>
      exact agrees_changeLast receiving fun _ counted =>
        .accept (counted.congr counted.draft rfl)

/-- What it takes for a number to leave its range in the course of some events. -/
def BeyondAll (limits : Limits) (came : Nat) (events : List Event) : Prop :=
  Bytes.wordBound ≤ limits.maxContentLength + 1 ∨
    Bytes.wordBound ≤ came + Event.bodySizes events ∧
      ∃ event ∈ events, Bytes.wordBound ≤ limits.maxContentLength + event.bodySize

/-- So are all events, one after the other. -/
theorem agrees_deliver {queue : RequestQueue} {events : List Event}
    (receiving : Receiving limits came queue) (word : limits.maxContentLength < Bytes.wordBound)
    (fits : ∀ event ∈ events, event.Within Head.maxSize) :
    Agrees (Receiving limits (came + Event.bodySizes events)) (BeyondAll limits came events)
      (deliver (checkedListener limits) events queue) (deliver (listener limits) events queue) := by
  induction events generalizing queue came with
  | nil => exact .accept receiving
  | cons event rest ih =>
      obtain ⟨fitsHere, fitsLater⟩ := List.forall_mem_cons.1 fits
      obtain ⟨same, good, overflow⟩ := agrees_listener receiving word fitsHere
      rw [deliver, deliver, same]
      rcases heard : listener limits event queue with ⟨refusal | refusal, next⟩ <;>
        rw [heard] at good overflow
      · obtain ⟨sameLater, goodLater, overflowLater⟩ := ih (good rfl) fitsLater
        rw [Event.bodySizes_cons, ← Nat.add_assoc]
        refine ⟨sameLater, goodLater, fun overflows => ?_⟩
        rcases overflowLater overflows with greatest | ⟨told, other, member, large⟩
        · exact .inl greatest
        · refine .inr ⟨?_, other, List.mem_cons_of_mem _ member, large⟩
          rw [Event.bodySizes_cons]
          omega
      · refine .refused fun overflows => (overflow overflows).imp_right ?_
        rintro ⟨large, told⟩
        refine ⟨?_, event, List.mem_cons_self, large⟩
        rw [Event.bodySizes_cons]
        omega

/-- A stream is listened to without a number out of range, whatever was received before: its
events begin with the beginning of a message. -/
theorem agrees_stream (queue : RequestQueue) (word : limits.maxContentLength < Bytes.wordBound)
    (pieces : List Bytes) :
    Agrees (fun _ => True) (BeyondAll limits 0 (Parser.runAll pieces .idle).1)
      (deliver (checkedListener limits) (Parser.runAll pieces .idle).1 queue)
      (deliver (listener limits) (Parser.runAll pieces .idle).1 queue) := by
  have inTurn := Parser.runAll_inTurn pieces
  have fits := Parser.runAll_within pieces
  generalize (Parser.runAll pieces .idle).1 = events at inTurn fits ⊢
  rcases events with _ | ⟨first, rest⟩
  · exact .accept trivial
  obtain rfl : first = .begin := by
    have allowed := inTurn.1
    cases first with
    | begin => rfl
    | _ => cases allowed
  have begun : checkedListener limits .begin queue = (none, queue.push Request.new) := by
    rw [checkedListener, Draft.empty?_eq]
    rfl
  obtain ⟨same, -, overflow⟩ := agrees_deliver (.push queue (counted_new limits 0)) word
    (List.forall_mem_cons.1 fits).2
  rw [deliver, deliver, begun, listener]
  refine ⟨same, fun _ => trivial, fun overflows => (overflow overflows).imp_right ?_⟩
  rintro ⟨told, event, member, large⟩
  refine ⟨?_, event, List.mem_cons_of_mem _ member, large⟩
  rw [Event.bodySizes_cons]
  exact Nat.le_trans told (Nat.add_le_add_left (Nat.le_add_left _ _) 0)

/-- A number leaves its range while the pieces are assembled behind the requests. -/
def Overflows (limits : Limits) (queue : RequestQueue) (pieces : List Bytes) : Prop :=
  (Parser.executeAll (checkedListener limits) pieces 0 .idle queue).result =
    .error (.refused .overflow)

theorem checked_executeAll (word : limits.maxContentLength < Bytes.wordBound)
    (queue : RequestQueue) (pieces : List Bytes) :
    Parser.executeAll (checkedListener limits) pieces 0 .idle queue =
      Parser.executeAll (listener limits) pieces 0 .idle queue := by
  rw [Parser.executeAll_eq, Parser.executeAll_eq, Parser.tell, Parser.tell,
    (agrees_stream queue word pieces).same]

/-- An overflow is what the listener tells, and no fault of the stream. -/
theorem overflows_iff (word : limits.maxContentLength < Bytes.wordBound) (queue : RequestQueue)
    (pieces : List Bytes) :
    Overflows limits queue pieces ↔
      (deliver (listener limits) (Parser.runAll pieces .idle).1 queue).1 = some .overflow := by
  rw [Overflows, checked_executeAll word, Parser.executeAll_eq, Parser.tell]
  rcases deliver (listener limits) (Parser.runAll pieces .idle).1 queue with
    ⟨refusal | refusal, after⟩
  · dsimp only
    cases outcome : (Parser.runAll pieces .idle).2 with
    | ok parser => simp
    | error fault =>
        have status := Parser.runAll_fault outcome
        simp only [Except.error.injEq, reduceCtorEq, iff_false]
        rintro rfl
        cases status
  · simp

theorem Overflows.cause {queue : RequestQueue} {pieces : List Bytes}
    (word : limits.maxContentLength < Bytes.wordBound) (overflows : Overflows limits queue pieces) :
    Bytes.wordBound ≤ limits.maxContentLength + 1 ∨
      Bytes.wordBound ≤ pieces.flatten.length ∧
        ∃ piece ∈ pieces, Bytes.wordBound ≤ limits.maxContentLength + piece.length := by
  refine ((agrees_stream queue word pieces).overflow
    ((overflows_iff word queue pieces).1 overflows)).imp_right ?_
  rintro ⟨told, event, member, large⟩
  have total := Parser.runAll_bodySizes pieces .idle
  obtain ⟨piece, inPieces, size⟩ := Parser.runAll_bodySize member
  exact ⟨by omega, piece, inPieces, by omega⟩

/-- A request with the first octet of a body in chunks. -/
def firstOctet : Bytes :=
  Bytes.ofAscii "POST / HTTP/1.1\r\nTransfer-Encoding: chunked\r\n\r\n1\r\nx"

/-- No place for it is in range under the greatest limit. -/
theorem firstOctet_overflows (greatest : Bytes.wordBound ≤ limits.maxContentLength + 1)
    (word : limits.maxContentLength < Bytes.wordBound) :
    Overflows limits .empty [firstOctet] := by
  let facts : HeadFacts := ⟨Bytes.ofAscii "POST", .http11, .chunked, false⟩
  let before : List Event := [.begin, .target (Bytes.ofAscii "/"),
    .fieldName (Bytes.ofAscii "Transfer-Encoding"), .fieldValue (Bytes.ofAscii "chunked")]
  let roomier : Limits := ⟨0, 0, limits.keepAlive⟩
  let filed := (deliver (listener ⟨0, 0, true⟩) before .empty).2
  have told : (Parser.runAll [firstOctet] .idle).1 =
      before ++ .head facts :: [.body (Bytes.ofAscii "x")] := by decide +kernel
  -- nothing in front of the end of the head asks for the limits
  have filing : deliver (listener limits) before .empty = (none, filed) := by
    have other : deliver (listener ⟨0, 0, true⟩) before .empty = (none, filed) := by
      decide +kernel
    exact other
  obtain ⟨front, request, isFiled, fresh⟩ := Intake.filed_fresh limits told filing
  have sound : (completeHead roomier facts request).1 = none := by
    have heard : ∀ keepAlive, (listener ⟨0, 0, keepAlive⟩ (.head facts) filed).1 = none := by
      decide +kernel
    have here := heard limits.keepAlive
    rwa [isFiled, listener, changeLast_push] at here
  have alike : roomier.keepAlive = limits.keepAlive := rfl
  obtain ⟨next, nextFresh, -, completed⟩ := fresh.completeHead alike sound
  have headed : listener limits (.head facts) filed = (none, front.push next) := by
    rw [isFiled, listener, changeLast_push, completed]
    rfl
  have octet : (addBody limits (Bytes.ofAscii "x") next).1 = some .overflow :=
    addBody_overflows nextFresh.body (by decide) (by
      have large : 2 ≤ Bytes.wordBound := by decide
      show 1 ≤ limits.maxContentLength
      omega) greatest
  have bodied : (listener limits (.body (Bytes.ofAscii "x")) (front.push next)).1 =
      some .overflow := by
    rw [listener, if_neg (by decide), changeLast_push]
    exact octet
  rw [overflows_iff word, told, Parser.deliver_append, filing]
  dsimp only
  rw [deliver, headed]
  dsimp only
  rw [deliver]
  rcases heard : listener limits (.body (Bytes.ofAscii "x")) (front.push next) with ⟨refusal, last⟩
  rw [heard] at bodied
  cases bodied
  rfl

end Assembly

/-! ## Configurations -/

/-- **Under every configuration requests are assembled with numbers in range**, but for the
greatest limit on bodies, which is one that a configuration may have, and for streams of more
octets than there are 64-bit numbers.  Where a number leaves its range, and only there, an
overflow is told. -/
theorem Config.assembles_inRange (config : Config) :
    (∀ queue pieces,
      Parser.executeAll (Assembly.checkedListener config.limits) pieces 0 .idle queue =
        Parser.executeAll (Assembly.listener config.limits) pieces 0 .idle queue) ∧
    (∀ queue pieces, Assembly.Overflows config.limits queue pieces →
      Bytes.wordBound ≤ config.maxContentLength.toNat + 1 ∨
        Bytes.wordBound ≤ pieces.flatten.length ∧
          ∃ piece ∈ pieces, Bytes.wordBound ≤ config.maxContentLength.toNat + piece.length) ∧
    ((∀ queue pieces, pieces.flatten.length < Bytes.wordBound →
        ¬ Assembly.Overflows config.limits queue pieces) ↔
      config.maxContentLength.toNat + 1 < Bytes.wordBound) := by
  have word : config.limits.maxContentLength < Bytes.wordBound :=
    UInt64.toNat_lt config.maxContentLength
  refine ⟨Assembly.checked_executeAll word, fun _ _ overflows => overflows.cause word,
    fun inRange => ?_, fun below queue pieces short overflows => ?_⟩
  · by_contra greatest
    refine inRange .empty [Assembly.firstOctet] (by decide +kernel) ?_
    exact Assembly.firstOctet_overflows (Nat.not_lt.1 greatest) word
  · rcases overflows.cause word with greatest | ⟨long, -⟩
    · exact absurd below (Nat.not_lt.2 greatest)
    · omega

/-- The configuration with the greatest limit is valid, and a short stream is too much for it. -/
theorem Config.greatest_limit_overflows :
    let config : Config := { maxContentLength := 18446744073709551615 }
    config.isValid = true ∧ ∃ queue pieces, pieces.flatten.length < Bytes.wordBound ∧
      Assembly.Overflows config.limits queue pieces := by
  refine ⟨by decide, ?_⟩
  by_contra never
  have inRange := (Config.assembles_inRange { maxContentLength := 18446744073709551615 }).2.2.1
    fun queue pieces short overflows => never ⟨queue, pieces, short, overflows⟩
  exact absurd inRange (by decide)

end EmbeddedHttp
