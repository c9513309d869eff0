/-
# EmbeddedHttp.Connection.Basic -- the state of a connection

A connection reads requests, has each one answered by a task of its own, and
writes the answers back in order of arrival.  It is always in one phase, and every
phase asks the outside for exactly one thing: octets, a write, a switch into the
task, a wait.  What the outside answers leads to the next phase.  So a connection
is a machine whose runs are all the ways in which the outside may answer, and
nothing it does depends on anything else.
-/
import EmbeddedHttp.Reactor.Action
import EmbeddedHttp.Request.Intake

namespace EmbeddedHttp

set_option autoImplicit false

/-- What all connections of a server share.  Times are in milliseconds. -/
structure Service (Call : Type) (Answer : Call → Type) where
  application : Application Call Answer
  limits : Limits
  keepAliveTimeout : Nat
  readTimeout : Nat
  writeTimeout : Nat
  serverName : String
  serverPort : Nat
  accessLog : Bool

/-- Why an outbox is being drained, and so what follows. -/
inductive Purpose (Call : Type) (Answer : Call → Type) where
  /-- An interim answer that is owed while the body of the first request is still to
  come. -/
  | interimWhileReading
  /-- An interim answer that is owed by a request about to be answered. -/
  | interimBefore (request : Request)
  /-- A piece of an answer. -/
  | piece (exchange : Exchange Call Answer) (flow : Flow)
  /-- The head of a file. -/
  | fileHead (exchange : Exchange Call Answer) (body : FileBody)
  /-- What ends a chunked body. -/
  | lastChunk (exchange : Exchange Call Answer)
  /-- A page for a request that failed; one that was answered by a task is in the
  access log. -/
  | errorPage (status : Status) (facts : Option Facts)

/-- The phases of a connection. -/
inductive Phase (Call : Type) (Answer : Call → Type) where
  /-- Waiting for octets; `idle` when nothing of a request has come. -/
  | receiving (idle : Bool)
  /-- Telling that reading failed. -/
  | tellingReadFault (fault : IoFault) (idle : Bool)
  /-- Draining an outbox. -/
  | writing (flush : Flush) (purpose : Purpose Call Answer)
  /-- About to start the task of a request. -/
  | spawning (request : Request)
  /-- Telling that the task of a request could not be made. -/
  | tellingUnstarted (facts : Facts) (fault : IoFault)
  /-- About to give a task control. -/
  | switching (exchange : Exchange Call Answer) (resume : Resume)
  /-- The task waits. -/
  | waiting (exchange : Exchange Call Answer) (wait : Wait)
  /-- About to hold partial segments back for a head. -/
  | corking (exchange : Exchange Call Answer) (emit : Emit)
  /-- About to ask for the date of a head. -/
  | dating (exchange : Exchange Call Answer) (emit : Emit)
  /-- Sending a file. -/
  | sendingFile (exchange : Exchange Call Answer) (transfer : Transfer)
  /-- The answer is out; no more segments are held back. -/
  | uncorking (exchange : Exchange Call Answer)
  /-- Telling of the answer. -/
  | tellingAccess (exchange : Exchange Call Answer)
  /-- Telling that the task failed. -/
  | tellingFailure (exchange : Exchange Call Answer) (error : AppError)
  /-- The page is out; no more segments are held back. -/
  | uncorkingPage (status : Status) (facts : Option Facts) (size : Nat)
  /-- Telling of the page. -/
  | tellingPage (notice : Notice)
  /-- On the way out. -/
  | leaving
  | hurrying
  /-- The connection ended. -/
  | closed
  /-- It ended with a fault while an interim answer was written. -/
  | broken (fault : IoFault)
  /-- A 64-bit sum left its range while a request was built. -/
  | overflowed

/-- A connection: what was read, whether more will be read, how many requests were
answered, and its phase. -/
structure Connection (Call : Type) (Answer : Call → Type) where
  intake : Intake
  /-- No more requests will be read: the peer has finished, reading failed, or the
  connection is upgraded. -/
  readClosed : Bool
  served : Nat
  phase : Phase Call Answer

namespace Connection

variable {Call : Type} {Answer : Call → Type}

/-- How many octets are read at once. -/
def readSize : Nat := 16 * 1024

/-- Go to a phase. -/
def goto (connection : Connection Call Answer) (phase : Phase Call Answer) :
    Connection Call Answer :=
  { connection with phase := phase }

/-- Has nothing of a request come? -/
def isIdle (connection : Connection Call Answer) : Bool := connection.intake.isIdle

end Connection

end EmbeddedHttp
