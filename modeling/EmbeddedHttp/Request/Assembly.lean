/-
# EmbeddedHttp.Request.Assembly -- building requests from the events of a message

The listener that turns the events of a parser into queued requests.  Every event
concerns the request that began last.  Names, values and targets may come in any
fragments: they are gathered in bounded buffers, and a field is stored once the
next one begins or the head ends.

A complete head decides whether the connection may be kept, whether an interim
answer is owed, and where the body will be kept; it is refused when the method is
unknown, a WebSocket handshake is incomplete, an expectation is unknown, the
declared length is too large, or a length is required and missing.
-/
import EmbeddedHttp.Request.Basic
import EmbeddedHttp.Request.Target
import EmbeddedHttp.Text.Percent

namespace EmbeddedHttp

set_option autoImplicit false

/-- The limits and switches that shape requests. -/
structure Limits where
  maxContentLength : Nat
  spoolThreshold : Nat
  keepAlive : Bool
  deriving DecidableEq, Repr

namespace Assembly

/-- What an event makes of the request at hand. -/
abbrev Change := Option Refusal × Request

/-- Accept. -/
def accept (request : Request) : Change := (none, request)

/-- Refuse with a status. -/
def refuse (status : Status) (request : Request) : Change := (some (.status status), request)

/-- Go on only if the change so far is accepted. -/
def andThen (change : Change) (next : Request → Change) : Change :=
  match change with
  | (some refusal, request) => (some refusal, request)
  | (none, request) => next request

/-! ## Fields -/

/-- Store the gathered field, if its value has begun. -/
def storeField (request : Request) : Change :=
  match request.draft.last with
  | .value =>
      if Request.maxFields ≤ request.headers.length then refuse .badRequest request
      else
        let field := (Utf8.decodeLossy request.draft.name.data,
          Utf8.decodeLossy request.draft.value.data)
        accept { request with
          headers := request.headers ++ [field]
          draft := { request.draft with
            name := request.draft.name.clear, value := request.draft.value.clear } }
  | _ => accept request

/-- Refuse when a buffer took less than it was given. -/
def unlessExcess (excess : Option Nat) (request : Request) : Change :=
  if excess.isSome then refuse .badRequest request else accept request

/-- A fragment of the target. -/
def addTarget (bytes : Bytes) (request : Request) : Change :=
  let written := request.draft.target.write bytes
  unlessExcess written.2 { request with draft := { request.draft with target := written.1 } }

/-- A fragment of a field name; it begins a field unless one is being named. -/
def addName (bytes : Bytes) (request : Request) : Change :=
  andThen (storeField request) fun request =>
    let written := request.draft.name.write bytes
    unlessExcess written.2
      { request with draft := { request.draft with name := written.1, last := .name } }

/-- A fragment of a field value, which cannot come before any name. -/
def addValue (bytes : Bytes) (request : Request) : Change :=
  if request.draft.last = .none then refuse .badRequest request
  else
    let written := request.draft.value.write bytes
    unlessExcess written.2
      { request with draft := { request.draft with value := written.1, last := .value } }

/-! ## A complete head -/

/-- May the connection be kept after this request?  The first Connection field
decides: HTTP/1.1 keeps it unless told to close, HTTP/1.0 closes it unless told to
keep it. -/
def keepsAlive (limits : Limits) (facts : HeadFacts) (request : Request) : Bool :=
  let connection := Bytes.ofText ((request.header? "connection").getD "")
  limits.keepAlive && !facts.upgrade &&
    match facts.version with
    | .http11 => !Bytes.hasToken connection (Bytes.ofAscii "close")
    | .http10 => Bytes.hasToken connection (Bytes.ofAscii "keep-alive")

/-- The method, the target and what the head says about the connection. -/
def describe (limits : Limits) (facts : HeadFacts) (request : Request) : Change :=
  match Method.ofBytes? facts.method with
  | none => refuse .badRequest request
  | some method =>
      let target := Utf8.decodeLossy request.draft.target.data
      let parts := Target.split target
      accept { request with
        method := method
        version := facts.version
        upgrade := facts.upgrade
        target := target
        path := Percent.decode parts.1
        query := parts.2
        keepAlive := keepsAlive limits facts request }

/-- An upgrade to WebSocket needs a key, and version 13. -/
def checkHandshake (facts : HeadFacts) (request : Request) : Change :=
  let wanted := facts.upgrade &&
    (request.header? "upgrade").any fun value => Text.sameIgnoringCase value "websocket"
  let hasKey := (request.header? "sec-websocket-key").any fun key => !key.isEmpty
  let hasVersion := (request.header? "sec-websocket-version").map Text.trim == some "13"
  if wanted && !(hasKey && hasVersion) then refuse .badRequest request else accept request

/-- The one expectation that is understood; HTTP/1.0 has none. -/
def noteExpectation (facts : HeadFacts) (request : Request) : Change :=
  match facts.version, request.header? "expect" with
  | .http11, some expectation =>
      if Text.sameIgnoringCase expectation "100-continue" then
        accept { request with expectContinue := true }
      else refuse .expectationFailed request
  | _, _ => accept request

/-- Give the request an empty body for `declared` octets. -/
def openBody (limits : Limits) (declared : Option Nat) (request : Request) : Change :=
  match Body.forLength? declared limits.spoolThreshold limits.maxContentLength with
  | some body => accept { request with body := some body }
  | none => (some .overflow, request)

/-- The declared length, and whether one is missing. -/
def admitFraming (limits : Limits) (facts : HeadFacts) (request : Request) : Change :=
  match facts.framing with
  | .length n =>
      if limits.maxContentLength < n then refuse .payloadTooLarge request
      else
        let request := { request with declaredLength := some n }
        if n = 0 then accept request else openBody limits (some n) request
  | .none =>
      if request.method.requiresLength && !facts.upgrade then refuse .lengthRequired request
      else accept request
  | .chunked => accept request

/-- A complete head. -/
def completeHead (limits : Limits) (facts : HeadFacts) (request : Request) : Change :=
  andThen (storeField request) fun request =>
    andThen (describe limits facts request) fun request =>
      andThen (checkHandshake facts request) fun request =>
        andThen (noteExpectation facts request) fun request =>
          admitFraming limits facts request

/-! ## The body -/

/-- A fragment of the body.  Once some of it is there, no interim answer is owed. -/
def addBody (limits : Limits) (bytes : Bytes) (request : Request) : Change :=
  if bytes.isEmpty then accept request
  else
    let request := { request with expectContinue := false }
    let received := (request.body.map (·.size)).getD 0 + bytes.length
    if Bytes.wordBound ≤ received then (some .overflow, request)
    else if limits.maxContentLength < received then refuse .payloadTooLarge request
    else
      let opened := match request.body with
        | some _ => accept request
        | none => openBody limits none request
      andThen opened fun request =>
        match request.body with
        | none => accept request
        | some body =>
            match body.write bytes limits.spoolThreshold with
            | (body, none) => accept { request with body := some body }
            | (body, some _) => refuse .internalServerError { request with body := some body }

/-! ## The listener -/

/-- Change the request that began last; without one nothing can be made of the
event. -/
def changeLast (change : Request → Change) (queue : RequestQueue) :
    Option Refusal × RequestQueue :=
  match queue.items.getLast? with
  | none => (some (.status .internalServerError), queue)
  | some request =>
      let changed := change request
      (changed.1, queue.setLast changed.2)

/-- The listener that builds requests into a queue. -/
def listener (limits : Limits) : Listener RequestQueue
  | .begin, queue => (none, queue.push Request.new)
  | .target bytes, queue => changeLast (addTarget bytes) queue
  | .fieldName bytes, queue => changeLast (addName bytes) queue
  | .fieldValue bytes, queue => changeLast (addValue bytes) queue
  | .head facts, queue => changeLast (completeHead limits facts) queue
  | .body bytes, queue =>
      if bytes.isEmpty then (none, queue) else changeLast (addBody limits bytes) queue
  | .complete, queue => changeLast (fun request => accept { request with complete := true }) queue

end Assembly

end EmbeddedHttp
