/-
# EmbeddedHttp.Message.Framing -- how the fields of a head frame its body

Each field is announced as a name and a value, and the few that concern the
connection are taken note of on the way.  The last Transfer-Encoding field says
whether the body is chunked; otherwise the length comes from Content-Length,
whose repetitions have to agree as numbers.  A message upgrades the connection
when it has an Upgrade field and some Connection field asks for it, or when its
method is CONNECT.
-/
import EmbeddedHttp.Message.Head

namespace EmbeddedHttp.Head

set_option autoImplicit false

/-- The value of a Content-Length field: decimal digits, and nothing else but
blanks around them, denoting a 64-bit number. -/
def contentLength? (value : Bytes) : Option Nat :=
  let digits := Bytes.trimBlanks value
  if digits.isEmpty || !digits.all Bytes.isDigit then none
  else
    let n := Bytes.decimalFrom 0 digits
    if n < Bytes.wordBound then some n else none

/-- What the fields so far say about the connection. -/
structure Notes where
  length : Option Nat
  chunked : Bool
  upgradeField : Bool
  connectionUpgrade : Bool
  deriving DecidableEq, Repr

namespace Notes

/-- No field seen. -/
def none : Notes := ⟨Option.none, false, false, false⟩

/-- Take note of one field. -/
def add (notes : Notes) (name value : Bytes) : Except Malformed Notes :=
  if Bytes.sameIgnoringCase name (Bytes.ofAscii "content-length") then
    match contentLength? value with
    | .none => .error .contentLength
    | some n =>
        if notes.length.any (· != n) then .error .conflictingContentLength
        else .ok { notes with length := some n }
  else if Bytes.sameIgnoringCase name (Bytes.ofAscii "transfer-encoding") then
    .ok { notes with
      chunked := Bytes.sameIgnoringCase (Bytes.lastElement value) (Bytes.ofAscii "chunked") }
  else if Bytes.sameIgnoringCase name (Bytes.ofAscii "upgrade") then
    .ok { notes with upgradeField := true }
  else if Bytes.sameIgnoringCase name (Bytes.ofAscii "connection") then
    .ok { notes with
      connectionUpgrade :=
        notes.connectionUpgrade || Bytes.hasToken value (Bytes.ofAscii "upgrade") }
  else .ok notes

/-- The framing that the fields agree on. -/
def framing (notes : Notes) : Framing :=
  if notes.chunked then .chunked
  else match notes.length with
    | some n => .length n
    | .none => .none

end Notes

/-- Announce the fields in order, up to the first that is malformed. -/
def announceFields : Notes → List (Bytes × Bytes) → List Event × Except Malformed Notes
  | notes, [] => ([], .ok notes)
  | notes, (name, value) :: rest =>
      match notes.add name value with
      | .error cause => ([.fieldName name, .fieldValue value], .error cause)
      | .ok notes =>
          let announced := announceFields notes rest
          (.fieldName name :: .fieldValue value :: announced.1, announced.2)

/-- Announce a complete head: its target, its fields, and what they amount to. -/
def Raw.announce (head : Raw) : List Event × Except Malformed HeadFacts :=
  let announced := announceFields Notes.none head.fields
  match announced.2 with
  | .error cause => (.target head.target :: announced.1, .error cause)
  | .ok notes =>
      let facts : HeadFacts :=
        { method := head.method
          version := head.version
          framing := notes.framing
          upgrade := (notes.upgradeField && notes.connectionUpgrade) ||
            head.method == Bytes.ofAscii "CONNECT" }
      (.target head.target :: announced.1 ++ [.head facts], .ok facts)

end EmbeddedHttp.Head
