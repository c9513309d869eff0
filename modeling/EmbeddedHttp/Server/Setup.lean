/-
# EmbeddedHttp.Server.Setup -- what a configuration amounts to

The parts of a server take from a configuration what concerns them: the limits of
requests, what all connections share, and when the accept loop pauses and ends.
-/
import EmbeddedHttp.Config.Basic
import EmbeddedHttp.Connection.Basic
import EmbeddedHttp.Server.Acceptor

namespace EmbeddedHttp

set_option autoImplicit false

namespace Config

/-- The limits of requests. -/
def limits (config : Config) : Limits where
  maxContentLength := config.maxContentLength.toNat
  spoolThreshold := config.bodyBufferSize.toNat
  keepAlive := config.keepAlive.enabled

/-- A time of so many seconds, in milliseconds. -/
def milliseconds (seconds : UInt64) : Nat := 1000 * seconds.toNat

/-- What the connections of a server share that listens at a port. -/
def service {Call : Type} {Answer : Call → Type} (config : Config)
    (application : Application Call Answer) (serverPort : Nat) : Service Call Answer where
  application := application
  limits := config.limits
  keepAliveTimeout := milliseconds config.keepAlive.timeout
  readTimeout := milliseconds config.readTimeout
  writeTimeout := milliseconds config.writeTimeout
  serverName := config.serverName
  serverPort := serverPort
  accessLog := config.accessLog

/-- The accept loop of a server. -/
def acceptor (config : Config) : Acceptor :=
  Acceptor.new config.maxConnections.toNat (milliseconds config.shutdownGrace)

end Config

end EmbeddedHttp
