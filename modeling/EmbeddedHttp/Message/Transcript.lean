/-
# EmbeddedHttp.Message.Transcript -- a listener that writes everything down

It keeps the events it heard in order, refused ones included, and can be told to
refuse one of them: the n-th event of a given kind, once.
-/
import EmbeddedHttp.Message.Parser

namespace EmbeddedHttp

set_option autoImplicit false

/-- The kinds of event. -/
inductive EventKind where
  | begin
  | target
  | fieldName
  | fieldValue
  | head
  | body
  | complete
  deriving DecidableEq, Repr

/-- The kind of an event. -/
def Event.kind : Event → EventKind
  | .begin => .begin
  | .target _ => .target
  | .fieldName _ => .fieldName
  | .fieldValue _ => .fieldValue
  | .head _ => .head
  | .body _ => .body
  | .complete => .complete

/-- The event that is to be refused: its kind, how many of that kind come first,
and the status to refuse it with. -/
structure Objection where
  kind : EventKind
  skip : Nat
  status : Status
  deriving DecidableEq, Repr

/-- The events heard since the transcript was last read, last first, and the
objection that still stands. -/
structure Transcript where
  heard : List Event
  objection : Option Objection
  deriving DecidableEq, Repr

namespace Transcript

/-- The listener. -/
def listener : Listener Transcript := fun event transcript =>
  let heard := event :: transcript.heard
  match transcript.objection with
  | none => (none, ⟨heard, none⟩)
  | some objection =>
      if event.kind = objection.kind then
        match objection.skip with
        | 0 => (some (.status objection.status), ⟨heard, none⟩)
        | skip + 1 => (none, ⟨heard, some { objection with skip := skip }⟩)
      else (none, ⟨heard, some objection⟩)

/-- The events in order, and the transcript without them. -/
def drain (transcript : Transcript) : List Event × Transcript :=
  (transcript.heard.reverse, { transcript with heard := [] })

end Transcript

end EmbeddedHttp
