/-
# EmbeddedHttp.Server.Binding -- taking up an address to listen on

An address in the file system is freed first: a socket that an earlier server left
behind is removed.  A host and port have to name a socket address that the machine
grants.  What can go wrong on the way is told with the address that was asked for.
-/
import EmbeddedHttp.Config.Listen
import EmbeddedHttp.Server.Address
import EmbeddedHttp.Server.Path

namespace EmbeddedHttp

set_option autoImplicit false

/-- Why an address could not be taken up. -/
inductive BindError where
  | unresolved (address : String)
  | notRemoved (path : String)
  | notBound (address : String)
  deriving DecidableEq, Repr

/-- The text of the error. -/
def BindError.message : BindError → String
  | .unresolved address => "failed to resolve " ++ address
  | .notRemoved path => "failed to remove " ++ path
  | .notBound address => "failed to bind " ++ address

/-- An address that was taken up. -/
inductive Bound where
  | tcp (address : SocketAddress)
  /-- A socket in the file system, perhaps in place of an old one. -/
  | unix (path : String) (replaced : Bool)
  deriving DecidableEq, Repr

/-- The port of the connections that come in.  A socket in the file system has none. -/
def Bound.port : Bound → Nat
  | .tcp address => address.port
  | .unix _ _ => 0

/-- Take up an address, of which it is known what the path offers if it is one. -/
def ListenAddress.bind (address : ListenAddress) (spot : Spot) : Except BindError Bound :=
  match address with
  | .tcp text =>
      match SocketAddress.ofText? text with
      | none => .error (.unresolved text)
      | some address =>
          if address.host.isBindable then .ok (.tcp address)
          else .error (.notBound address.toText)
  | .unix path =>
      match spot with
      | .free => .ok (.unix path false)
      | .occupied => .ok (.unix path true)
      | .blocked => .error (.notRemoved path)
      | .unusable => .error (.notBound path)

end EmbeddedHttp
