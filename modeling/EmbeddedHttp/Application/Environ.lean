/-
# EmbeddedHttp.Application.Environ -- what an application sees of a request

The request as the application sees it: its line, its headers, where it came from
and where it was served, and its body ready to be read.
-/
import EmbeddedHttp.Request.Input
import EmbeddedHttp.Request.Basic
import EmbeddedHttp.Text.Numeral

namespace EmbeddedHttp

set_option autoImplicit false

/-- The other end of a connection. -/
structure Peer where
  address : String
  port : Nat
  deriving DecidableEq, Repr

/-- A peer on a socket in the file system has no address. -/
def Peer.unix : Peer := ⟨"", 0⟩

/-- The facts that all requests of one connection share. -/
structure Origin where
  peer : Peer
  serverName : String
  serverPort : Nat
  deriving DecidableEq, Repr

/-- One request as an application sees it. -/
structure Environ where
  method : Method
  /-- The path, with its escapes resolved. -/
  path : String
  query : String
  /-- The target as it was sent. -/
  target : String
  version : Version
  headers : List (String × String)
  origin : Origin
  input : Input
  /-- The request asks for the connection itself. -/
  upgrade : Bool
  deriving DecidableEq, Repr

namespace Environ

/-- The scheme of every request served here. -/
def scheme : String := "http"

/-- The view of a request. -/
def ofRequest (request : Request) (origin : Origin) : Environ :=
  { method := request.method
    path := request.path
    query := request.query
    target := request.target
    version := request.version
    headers := request.headers
    origin := origin
    input := match request.body with
      | some body => Input.ofBody body
      | none => Input.empty
    upgrade := request.upgrade }

/-- The value of the first header with a given name. -/
def header? (environ : Environ) (name : String) : Option String :=
  headerValue? environ.headers name

/-- The type of the body. -/
def contentType? (environ : Environ) : Option String := environ.header? "content-type"

/-- The declared length of the body, when the first such header is a numeral. -/
def contentLength? (environ : Environ) : Option Nat :=
  (environ.header? "content-length").bind fun value =>
    Text.numeral? Bytes.wordBound (Text.trimChars value.toList)

end Environ

end EmbeddedHttp
