/-
# EmbeddedHttp.Yaml.Node -- documents as trees

A document is a tree of scalars, sequences and mappings.  A node with an anchor
may be meant again further on, by an alias.  Anchors are numbered, and a document
keeps the nodes that have one: where a number was given twice, the later node
counts.
-/
import EmbeddedHttp.Yaml.Scalar
import EmbeddedHttp.Bytes

namespace EmbeddedHttp.Yaml

set_option autoImplicit false

/-- A node of a document. -/
inductive Node where
  /-- The node with an anchor. -/
  | aliasTo (number : Nat)
  | scalar (text : String) (style : Style) (tag : Option Bytes)
  | sequence (items : List Node)
  | mapping (entries : List (Node × Node))

/-- The nodes that have an anchor, with its number, in the order in which they
begin. -/
abbrev Anchored : Type := List (Nat × Node)

/-- The node that stands where nothing is written. -/
def Node.empty : Node := .scalar "" .plain none

/-- What a node is once an alias is followed.  Nodes with an anchor are no aliases
themselves, so one step is enough. -/
def Node.resolve (anchored : Anchored) : Node → Node
  | .aliasTo number =>
      ((anchored.reverse.find? (·.1 == number)).map Prod.snd).getD (.aliasTo number)
  | node => node

/-- A document.  An empty one has no root. -/
structure Document where
  root : Option Node
  anchored : Anchored

end EmbeddedHttp.Yaml
