/-
# EmbeddedHttp.Reactor.Notice -- what the server tells its operator

Lines of the log, as causes.  An access line tells of a request that was answered;
the others tell of something that went wrong.
-/
import EmbeddedHttp.Connection.Exchange

namespace EmbeddedHttp

set_option autoImplicit false

/-- A line of the log. -/
inductive Notice where
  /-- A request was answered, with this status and so many octets. -/
  | access (remote : String) (facts : Facts) (status bytes : Nat)
  /-- The task of a request failed. -/
  | applicationFailed (error : AppError) (path : String)
  /-- The task of a request could not be made. -/
  | taskNotStarted (fault : IoFault)
  /-- Reading from the peer failed. -/
  | readFailed (fault : IoFault)
  /-- A request was answered without the application. -/
  | rejected (status : Status)
  /-- The task of a detached call failed. -/
  | detachedFailed (error : AppError)
  /-- A scheduled call panicked. -/
  | callPanicked
  /-- The watchdog of the server failed. -/
  | watchdogFailed (error : String)
  /-- The grace period ended with so many connections open. -/
  | graceOver (openConnections : Nat)
  /-- A socket left behind by an earlier server was removed. -/
  | staleSocketRemoved (path : String)
  deriving DecidableEq, Repr

/-- How much a line matters. -/
inductive Level where
  | access
  | warning
  | error
  deriving DecidableEq, Repr

namespace Notice

/-- The level of a line. -/
def level : Notice → Level
  | .access .. => .access
  | .applicationFailed .. | .taskNotStarted _ | .readFailed _ | .detachedFailed _
  | .callPanicked => .error
  | .rejected _ | .watchdogFailed _ | .graceOver _ | .staleSocketRemoved _ => .warning

/-- The message of a line; an access line has none. -/
def message? : Notice → Option String
  | .access .. => none
  | .applicationFailed .. => some "application failed"
  | .taskNotStarted _ => some "failed to start request task"
  | .readFailed _ => some "read failed"
  | .rejected _ => some "rejected request"
  | .detachedFailed _ => some "detached task failed"
  | .callPanicked => some "scheduled call panicked"
  | .watchdogFailed _ => some "watchdog failed"
  | .graceOver _ => some "grace period over, dropping open connections"
  | .staleSocketRemoved _ => some "removed stale socket"

end Notice

end EmbeddedHttp
