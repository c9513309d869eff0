/-
# EmbeddedHttp.Config.Basic -- the configuration of a server

Times are in seconds and sizes in octets.  Every setting has a value that it takes
when nothing is said about it.  A configuration is valid if the server can accept a
connection and the tasks have enough stack; nothing else is asked of it.
-/
import EmbeddedHttp.Config.Listen

namespace EmbeddedHttp

set_option autoImplicit false

/-- How connections are kept between requests. -/
structure KeepAlive where
  enabled : Bool := true
  /-- How long a kept connection may be idle. -/
  timeout : UInt64 := 5
  deriving DecidableEq, Repr

/-- The settings of a server. -/
structure Config where
  listen : ListenAddress := .tcp "127.0.0.1:8000"
  backlog : UInt32 := 4096
  /-- How many connections may be open at once. -/
  maxConnections : UInt64 := 4096
  /-- The largest body of a request. -/
  maxContentLength : UInt64 := 16 * 1024 * 1024
  /-- The largest body that is kept in memory. -/
  bodyBufferSize : UInt64 := 500 * 1024
  keepAlive : KeepAlive := {}
  readTimeout : UInt64 := 30
  writeTimeout : UInt64 := 300
  taskStackSize : UInt64 := 256 * 1024
  /-- What answers call the server. -/
  serverName : String := "hearth"
  accessLog : Bool := true
  /-- How long open connections may go on once the server is asked to stop. -/
  shutdownGrace : UInt64 := 10
  deriving DecidableEq, Repr

/-- What makes a configuration invalid. -/
inductive Violation where
  | noConnections
  | smallStack
  deriving DecidableEq, Repr

/-- The violation in words. -/
def Violation.message : Violation → String
  | .noConnections => "max_connections must be at least 1"
  | .smallStack => "task_stack_size must be at least 16384 bytes"

namespace Config

/-- The least stack of a task. -/
def minStackSize : UInt64 := 16 * 1024

/-- What is wrong with a configuration, if anything is. -/
def violation? (config : Config) : Option Violation :=
  if config.maxConnections == 0 then some .noConnections
  else if config.taskStackSize < minStackSize then some .smallStack
  else none

/-- May a server be run with the configuration? -/
def isValid (config : Config) : Bool := config.violation?.isNone

end Config

end EmbeddedHttp
