/-
# EmbeddedHttp.Request.Body -- where the body of a request is kept

A small body is held in memory.  A body that is declared larger than the
threshold, or grows past it, is spooled: what was held so far goes out first and
the rest is appended, so the content is the same in both places.
-/
import EmbeddedHttp.Buffer
import EmbeddedHttp.Fault

namespace EmbeddedHttp

set_option autoImplicit false

/-- A request body as it arrives. -/
inductive Body where
  | memory (buffer : Buffer)
  | spooled (content : Bytes)
  deriving DecidableEq, Repr

namespace Body

/-- The room for a body of unknown length. -/
def initialRoom : Nat := 8 * 1024

/-- An empty body for the declared length.  Nothing is made when a body would be
held in memory under a limit whose successor leaves the 64-bit range.  Room that a
machine could not give for any other reason is taken to be there (`Buffer`). -/
def forLength? (declared : Option Nat) (threshold limit : Nat) : Option Body :=
  let inMemory := fun room =>
    if limit + 1 < Bytes.wordBound then some (Body.memory (Buffer.new room limit)) else none
  match declared with
  | some length => if threshold < length then some (.spooled []) else inMemory length
  | none => inMemory initialRoom

/-- The content so far. -/
def content : Body → Bytes
  | .memory buffer => buffer.data
  | .spooled content => content

/-- The number of octets so far. -/
def size (body : Body) : Nat := body.content.length

/-- Is there no content yet? -/
def isEmpty (body : Body) : Bool := body.size == 0

/-- Is it spooled? -/
def isSpooled : Body → Bool
  | .memory _ => false
  | .spooled _ => true

/-- The body moved out of memory when `more` further octets would pass the
threshold. -/
def spill (body : Body) (more threshold : Nat) : Body :=
  match body with
  | .memory buffer =>
      if threshold < buffer.size + more then .spooled buffer.data else .memory buffer
  | .spooled content => .spooled content

/-- Append a fragment.  A body in memory that passes its limit keeps what fits and
reports a fault. -/
def write (body : Body) (data : Bytes) (threshold : Nat) : Body × Option IoFault :=
  match body.spill data.length threshold with
  | .memory buffer =>
      match buffer.write data with
      | (buffer, none) => (.memory buffer, none)
      | (buffer, some _) => (.memory buffer, some IoFault.bodyOverLimit)
  | .spooled content => (.spooled (content ++ data), none)

end Body

end EmbeddedHttp
