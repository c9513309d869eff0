/-
# EmbeddedHttp.Config.Listen -- where the server listens

An address is a socket in the file system when it is written with the scheme
`unix:` or is an absolute path, and a host and port otherwise.
-/
namespace EmbeddedHttp

set_option autoImplicit false

/-- Where to listen. -/
inductive ListenAddress where
  /-- A host and port. -/
  | tcp (address : String)
  /-- The path of a socket. -/
  | unix (path : String)
  deriving DecidableEq, Repr

namespace ListenAddress

/-- The address that a text names. -/
def ofText (text : String) : ListenAddress :=
  match text.toList with
  | 'u' :: 'n' :: 'i' :: 'x' :: ':' :: path => .unix (String.ofList path)
  | '/' :: _ => .unix text
  | _ => .tcp text

/-- The address as text.  Reading it back gives the same address. -/
def toText : ListenAddress → String
  | .tcp address => address
  | .unix path => "unix:" ++ path

end ListenAddress

end EmbeddedHttp
