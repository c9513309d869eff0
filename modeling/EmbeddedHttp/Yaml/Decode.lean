/-
# EmbeddedHttp.Yaml.Decode -- values from documents

A decoder says what value a node stands for.  Every scalar stands for a text.  One
that is plain stands for a truth value or a number as well, if it is written like
one; a literal block does so too if its tag says which of them it is.  A record is
a mapping of some fields, each of which may be left out and none of which may come
twice.  Entries of other names are ignored.
-/
import EmbeddedHttp.Text.Numeral
import EmbeddedHttp.Yaml.Node

namespace EmbeddedHttp.Yaml

set_option autoImplicit false

/-- Why a node does not stand for a value of the kind that is asked for. -/
inductive Mismatch where
  | notText
  | notBoolean
  | notNatural
  | notRecord
  | duplicateField (name : String)
  deriving DecidableEq, Repr

/-- What value a node stands for, given the nodes that have an anchor. -/
abbrev Decoder (α : Type) : Type := Anchored → Node → Except Mismatch α

/-! ## Scalars -/

/-- May a scalar stand for a value of the type that a tag names? -/
def standsFor (typeTag : Bytes) (style : Style) (tag : Option Bytes) : Bool :=
  match style with
  | .plain => true
  | .literal => tag == some typeTag
  | _ => false

/-- The tag of truth values. -/
def booleanTag : Bytes := Bytes.ofAscii "tag:yaml.org,2002:bool"

/-- The tag of numbers. -/
def integerTag : Bytes := Bytes.ofAscii "tag:yaml.org,2002:int"

/-- The truth value that a text denotes. -/
def boolean? (text : String) : Option Bool :=
  if text == "true" || text == "True" || text == "TRUE" then some true
  else if text == "false" || text == "False" || text == "FALSE" then some false
  else none

/-- The number below a bound that characters without a sign denote: the prefixes
choose a base, and a decimal number does not begin with a needless zero. -/
def unsigned? (bound : Nat) : List Char → Option Nat
  | '0' :: 'x' :: digits => Text.digits? 16 bound digits
  | '0' :: 'o' :: digits => Text.digits? 8 bound digits
  | '0' :: 'b' :: digits => Text.digits? 2 bound digits
  | '0' :: _ :: _ => none
  | digits => Text.digits? 10 bound digits

/-- The number below a bound that a text denotes.  A plus sign may come first. -/
def natural? (bound : Nat) (text : String) : Option Nat :=
  match text.toList with
  | '+' :: digits => unsigned? bound digits
  | digits => unsigned? bound digits

namespace Decoder

/-- A text. -/
def text : Decoder String := fun anchored node =>
  match node.resolve anchored with
  | .scalar text _ _ => .ok text
  | _ => .error .notText

/-- A truth value. -/
def boolean : Decoder Bool := fun anchored node =>
  match node.resolve anchored with
  | .scalar text style tag =>
      match if standsFor booleanTag style tag then boolean? text else none with
      | some value => .ok value
      | none => .error .notBoolean
  | _ => .error .notBoolean

/-- A number below a bound. -/
def natural (bound : Nat) : Decoder Nat := fun anchored node =>
  match node.resolve anchored with
  | .scalar text style tag =>
      match if standsFor integerTag style tag then natural? bound text else none with
      | some value => .ok value
      | none => .error .notNatural
  | _ => .error .notNatural

/-- A number of 32 bits. -/
def uint32 : Decoder UInt32 := fun anchored node =>
  (natural UInt32.size anchored node).map UInt32.ofNat

/-- A number of 64 bits. -/
def uint64 : Decoder UInt64 := fun anchored node =>
  (natural UInt64.size anchored node).map UInt64.ofNat

end Decoder

/-! ## Records -/

/-- A field of a record: its name, and what its value changes. -/
structure Field (σ : Type) where
  name : String
  decode : Decoder (σ → σ)

/-- A field with a value of some type. -/
def Field.of {α σ : Type} (name : String) (decoder : Decoder α) (set : α → σ → σ) : Field σ :=
  ⟨name, fun anchored node => (decoder anchored node).map set⟩

namespace Decoder

variable {σ : Type}

/-- Take the entries of a mapping one after the other, knowing the names of the
fields that came before. -/
def entries (fields : List (Field σ)) (anchored : Anchored) :
    List (Node × Node) → List String → σ → Except Mismatch σ
  | [], _, record => .ok record
  | (key, value) :: rest, seen, record => do
      let name ← text anchored key
      match fields.find? (·.name == name) with
      | none => entries fields anchored rest seen record
      | some field =>
          if seen.contains name then throw (.duplicateField name)
          let change ← field.decode anchored value
          entries fields anchored rest (name :: seen) (change record)

/-- A record of these fields, with the values it has when they are left out.  Nothing
at all stands for a record that leaves out all of them. -/
def record (fields : List (Field σ)) (initial : σ) : Decoder σ := fun anchored node =>
  match node.resolve anchored with
  | .mapping pairs => entries fields anchored pairs [] initial
  | .scalar text style _ =>
      if text.isEmpty && style == .plain then .ok initial else .error .notRecord
  | _ => .error .notRecord

end Decoder

/-- The record that a document holds. -/
def Document.record {σ : Type} (document : Document) (fields : List (Field σ)) (initial : σ) :
    Except Mismatch σ :=
  Decoder.record fields initial document.anchored (document.root.getD .empty)

end EmbeddedHttp.Yaml
