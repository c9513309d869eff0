/-
# EmbeddedHttp.Server.Path -- what a path offers to a socket

A socket is put at a path in two steps: what is there is removed, and then the socket
is made.  A `Spot` says how far these steps get.  Both are subject to the limits of
the system on the length of a name, of a path, and of the path of a socket.
-/
import EmbeddedHttp.Text.Pieces

namespace EmbeddedHttp

set_option autoImplicit false

/-- What was left behind at a path. -/
inductive Leftover where
  | nothing
  | file
  | directory
  deriving DecidableEq, Repr

/-- What a path offers to a socket. -/
inductive Spot where
  /-- Nothing is there, and a socket can be made. -/
  | free
  /-- A file is there, which can be removed, and a socket can be made. -/
  | occupied
  /-- Something is there that cannot be removed, or the path is refused. -/
  | blocked
  /-- Nothing is there once a file is removed, but no socket can be made. -/
  | unusable
  deriving DecidableEq, Repr

namespace Spot

/-- The most octets that a name may have. -/
def nameLimit : Nat := 255

/-- The most octets that a path may have. -/
def pathLimit : Nat := 4095

/-- The most octets that the path of a socket may have. -/
def socketPathLimit : Nat := 107

/-- Does the piece of a path lead to a directory that is there already? -/
def staysPut (piece : List Char) : Bool :=
  piece.isEmpty || piece == ['.'] || piece == ['.', '.']

/-- What a name offers in a directory whose path has so many octets, when nothing is in
it but what was left behind at the name. -/
def inDirectory (length : Nat) (leftover : Leftover) (name : String) : Spot :=
  let length := length + 1 + name.utf8ByteSize
  let made := fun spot : Spot => if length ≤ socketPathLimit then spot else .unusable
  if name.toList.contains '\x00' || pathLimit < length then .blocked
  else
    match leftover with
    | .directory => .blocked
    | .file => made .occupied
    | .nothing =>
        match (Text.pieces '/' name.toList).dropWhile staysPut with
        | [] => .blocked
        | first :: rest =>
            if nameLimit < (String.ofList first).utf8ByteSize then .blocked
            else if rest.isEmpty then made .free
            else .unusable

end Spot

end EmbeddedHttp
