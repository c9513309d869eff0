/-
# EmbeddedHttp.Request.Basic -- requests and their queue

A request is built up while its message is read and is answered once it is ready:
when it is complete, or when it carries an error to be answered instead.  The
requests of one connection wait in order of arrival; the last one is the only one
that may still be on its way.  An error is recorded on the request being received,
or as a request of its own when there is none, so a finished request is never
blamed for what comes behind it.
-/
import EmbeddedHttp.Message.Event
import EmbeddedHttp.Request.Method
import EmbeddedHttp.Request.Body
import EmbeddedHttp.Text.Blank

namespace EmbeddedHttp

set_option autoImplicit false

/-- Which part of a field came last. -/
inductive LastPart where
  | none
  | name
  | value
  deriving DecidableEq, Repr

/-- The pieces of a head that are still being gathered. -/
structure Draft where
  target : Buffer
  name : Buffer
  value : Buffer
  last : LastPart
  deriving DecidableEq, Repr

/-- The longest target. -/
def Draft.targetLimit : Nat := 8 * 1024

/-- The longest name and the longest value of a field. -/
def Draft.fieldLimit : Nat := 8 * 1024

/-- Nothing gathered. -/
def Draft.empty : Draft :=
  ⟨Buffer.new 256 Draft.targetLimit, Buffer.new 64 Draft.fieldLimit,
    Buffer.new 128 Draft.fieldLimit, .none⟩

/-- One request of a connection. -/
structure Request where
  method : Method
  /-- The target as it was sent. -/
  target : String
  /-- The path, with its escapes resolved. -/
  path : String
  /-- The query as it was sent, without the question mark. -/
  query : String
  version : Version
  /-- The fields in order of arrival, with their names as sent. -/
  headers : List (String × String)
  body : Option Body
  keepAlive : Bool
  upgrade : Bool
  /-- The client waits for an interim answer before it sends the body. -/
  expectContinue : Bool
  /-- An error to be answered instead of calling the application. -/
  failure : Option Status
  complete : Bool
  declaredLength : Option Nat
  draft : Draft
  deriving DecidableEq, Repr

/-- The value of the first field with a given name, in any letter case. -/
def headerValue? (headers : List (String × String)) (name : String) : Option String :=
  (headers.find? fun field => Text.sameIgnoringCase field.1 name).map (·.2)

namespace Request

/-- The most fields in one request. -/
def maxFields : Nat := 128

/-- A request of which nothing is known. -/
def new : Request :=
  { method := .get, target := "", path := "", query := "", version := .http11, headers := [],
    body := none, keepAlive := false, upgrade := false, expectContinue := false,
    failure := none, complete := false, declaredLength := none, draft := Draft.empty }

/-- The request with an error recorded on it, which finishes it. -/
def fail (request : Request) (status : Status) : Request :=
  { request with failure := some status, complete := true }

/-- Can it be answered? -/
def isReady (request : Request) : Bool :=
  request.complete || request.failure.isSome

/-- The value of the first field with a given name. -/
def header? (request : Request) (name : String) : Option String :=
  headerValue? request.headers name

end Request

/-- The requests of one connection in order of arrival. -/
structure RequestQueue where
  items : List Request
  deriving DecidableEq, Repr

namespace RequestQueue

/-- No request. -/
def empty : RequestQueue := ⟨[]⟩

/-- The number of requests. -/
def size (queue : RequestQueue) : Nat := queue.items.length

/-- Is there no request? -/
def isEmpty (queue : RequestQueue) : Bool := queue.items.isEmpty

/-- Add a request at the end. -/
def push (queue : RequestQueue) (request : Request) : RequestQueue :=
  ⟨queue.items ++ [request]⟩

/-- The first request and the others. -/
def pop? (queue : RequestQueue) : Option (Request × RequestQueue) :=
  match queue.items with
  | [] => none
  | request :: rest => some (request, ⟨rest⟩)

/-- The request being received, if there is one. -/
def inProgress? (queue : RequestQueue) : Option Request :=
  queue.items.getLast?.filter fun request => !request.isReady

/-- Can the first request be answered? -/
def frontReady (queue : RequestQueue) : Bool :=
  queue.items.head?.any (·.isReady)

/-- Replace the last request. -/
def setLast (queue : RequestQueue) (request : Request) : RequestQueue :=
  ⟨queue.items.dropLast ++ [request]⟩

/-- Record an error on the request being received, or as a request of its own. -/
def recordFailure (queue : RequestQueue) (status : Status) : RequestQueue :=
  match queue.inProgress? with
  | some request => queue.setLast (request.fail status)
  | none => queue.push (Request.new.fail status)

end RequestQueue

end EmbeddedHttp
