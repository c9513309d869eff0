/-
# EmbeddedHttp.Response.Body -- what an application returns

A body is empty, given whole, pulled chunk by chunk, or a part of a file.  Pulling
runs code of the application, so a pull may tell the outside something first, and
may fail or panic instead of yielding a chunk.  A request task hands its response
to the connection in pieces (`Emit`).
-/
import EmbeddedHttp.Response.Head

namespace EmbeddedHttp

set_option autoImplicit false

/-- What a pull yields. -/
inductive Yield where
  | chunk (data : Bytes)
  | failed (error : AppError)
  | panicked (payload : PanicPayload)
  deriving DecidableEq, Repr

/-- One pull: what it tells the outside, and what it yields. -/
structure Pull (Call : Type) where
  told : List Call
  yields : Yield

/-- A body in chunks: its pulls in order, and the bounds it gives for the number of
pulls left after the first (the upper one may be missing). -/
structure ChunkStream (Call : Type) where
  pulls : List (Pull Call)
  hint : Nat × Option Nat

namespace ChunkStream

variable {Call : Type}

/-- A stream that knows how much is left. -/
def sized (pulls : List (Pull Call)) : ChunkStream Call :=
  ⟨pulls, (pulls.length - 1, some (pulls.length - 1))⟩

/-- A stream that does not. -/
def unsized (pulls : List (Pull Call)) : ChunkStream Call := ⟨pulls, (0, none)⟩

end ChunkStream

/-- A part of a file: its content, where the part begins, and how long it is. -/
structure FileBody where
  content : Bytes
  position : Nat
  length : Nat
  deriving DecidableEq, Repr

namespace FileBody

/-- The file from a position to its end. -/
def toEnd (content : Bytes) (position : Nat) : FileBody :=
  ⟨content, position, content.length - position⟩

end FileBody

/-- The body of a response. -/
inductive ResponseBody (Call : Type) where
  | empty
  | full (data : Bytes)
  | stream (chunks : ChunkStream Call)
  | file (file : FileBody)

namespace ResponseBody

variable {Call : Type}

/-- A list of chunks.  A single chunk has a known length, so it is a whole body. -/
def ofChunks : List Bytes → ResponseBody Call
  | [] => .empty
  | [data] => .full data
  | chunks => .stream (ChunkStream.sized (chunks.map fun data => ⟨[], .chunk data⟩))

/-- The kind of body, with its size when it is known. -/
def summary : ResponseBody Call → String
  | .empty => "Empty"
  | .full data => "Full(" ++ toString data.length ++ " bytes)"
  | .stream _ => "Stream"
  | .file part => "File(" ++ toString part.length ++ " bytes)"

end ResponseBody

/-- The size of a body as it is announced. -/
inductive BodyLength where
  | known (n : Nat)
  | unknown
  deriving DecidableEq, Repr

/-- What a request task hands to its connection. -/
inductive Emit where
  /-- The status and headers, with the first piece of the body. -/
  | head (head : ResponseHead) (first : Option Bytes) (length : BodyLength)
  /-- The status and headers of a file. -/
  | file (head : ResponseHead) (body : FileBody)
  /-- A further piece of the body. -/
  | chunk (data : Bytes)
  deriving DecidableEq, Repr

end EmbeddedHttp
