/-
# EmbeddedHttp.Buffer -- a growing buffer with a hard limit

Targets, field names, field values and bodies in memory are gathered here.  The
capacity doubles as the content grows and never passes the limit plus one, so
exactly `limit` octets fit.  A write that does not fit stores what does and says
how much that was.

A buffer of every capacity up to the limit plus one can be had here.  A machine may
refuse one that is far larger than its memory; what happens then is not modelled.
-/
import EmbeddedHttp.Bytes

namespace EmbeddedHttp

set_option autoImplicit false

/-- A buffer: its content, its capacity and its limit. -/
structure Buffer where
  data : Bytes
  capacity : Nat
  limit : Nat
  deriving DecidableEq, Repr

namespace Buffer

/-- The limit of a buffer for which none is given. -/
def defaultLimit : Nat := 1024 * 1024 * 1024

/-- An empty buffer.  A limit of zero means `defaultLimit`; the capacity is at
least one and at most the limit plus one. -/
def new (capacity limit : Nat) : Buffer :=
  let limit := if limit = 0 then defaultLimit else limit
  ⟨[], max 1 (min capacity (limit + 1)), limit⟩

/-- The buffer that is made when nothing is said about its size. -/
def standard : Buffer := new 1024 defaultLimit

/-- How many octets are stored. -/
def size (buffer : Buffer) : Nat := buffer.data.length

/-- Is nothing stored? -/
def isEmpty (buffer : Buffer) : Bool := buffer.data.isEmpty

/-- The capacity once `needed` octets have to be held: unchanged while they fit
below it, else doubled, or one more than needed when that is not enough, and
never above the limit plus one. -/
def grown (buffer : Buffer) (needed : Nat) : Nat :=
  if needed < buffer.capacity then buffer.capacity
  else
    let doubled := if buffer.capacity * 2 ≤ needed then needed + 1 else buffer.capacity * 2
    if buffer.limit < doubled then buffer.limit + 1 else doubled

/-- Append `bytes`.  When they would cross the limit only the part that fits is
stored, and its length is the second result. -/
def write (buffer : Buffer) (bytes : Bytes) : Buffer × Option Nat :=
  let needed := buffer.size + bytes.length
  let capacity := buffer.grown needed
  if needed < capacity then
    (⟨buffer.data ++ bytes, capacity, buffer.limit⟩, none)
  else
    let fits := capacity - buffer.size - 1
    (⟨buffer.data ++ bytes.take fits, capacity, buffer.limit⟩, some fits)

/-- Drop the content; the capacity stays. -/
def clear (buffer : Buffer) : Buffer :=
  ⟨[], buffer.capacity, buffer.limit⟩

/-- The text of a write that crossed the limit. -/
def limitMessage (written : Nat) : String :=
  "buffer limit exceeded (" ++ toString written ++ " bytes stored)"

end Buffer

end EmbeddedHttp
