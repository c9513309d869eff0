/-
# EmbeddedHttp.Yaml.Grammar -- from tokens to a document

A node is an alias, or a scalar or collection with perhaps an anchor and a tag in
front; where nothing is written there is an empty scalar.  The entries of a block
sequence that is the value of a mapping may stand as far left as the mapping's
keys.  In a flow sequence a pair stands for a mapping of one entry.  A text holds
one document at most.

The readers call each other, so each is given fuel.  On every way from one call of
a reader to the next a token is passed over, and so the number of tokens bounds the
depth (`parse`).
-/
import EmbeddedHttp.Yaml.Node
import EmbeddedHttp.Yaml.Token

namespace EmbeddedHttp.Yaml

set_option autoImplicit false

/-! ## What is being read -/

/-- The tokens that are left and what is known of the document so far. -/
structure Reading where
  tokens : List Token
  /-- The tag handles, with what they stand for. -/
  handles : List (List Char × Bytes)
  /-- The number that belongs to each name of an anchor by now. -/
  numbers : List (List Char × Nat)
  anchored : Anchored

/-- A reader of some part of a document. -/
abbrev Reader : Type → Type := StateT Reading (Except Malformed)

namespace Reader

/-- The next token. -/
def peek : Reader Token := return ((← get).tokens.head?).getD .streamEnd

/-- Pass over a token. -/
def advance : Reader Unit := modify fun reading => { reading with tokens := reading.tokens.drop 1 }

/-- Pass over this token, which has to be next. -/
def expect (token : Token) : Reader Unit := do
  if (← peek) == token then advance else throw .unexpectedToken

/-! ## Anchors and tags -/

/-- The alias with a name, which an anchor has to have by now. -/
def aliasNode (name : List Char) : Reader Node := do
  match (← get).numbers.find? (·.1 == name) with
  | some known => return .aliasTo known.2
  | none => throw .unknownAnchor

/-- Note that a node with an anchor begins, and where it will be kept.  The number
is how many other names there are, so a name that comes back gets a new one. -/
def beginAnchored (name : List Char) : Reader Nat := do
  let reading ← get
  let number := reading.numbers.length
  set { reading with
    numbers := (name, number) :: reading.numbers.filter (·.1 != name)
    anchored := reading.anchored ++ [(number, Node.aliasTo number)] }
  return reading.anchored.length

/-- Keep a node where `beginAnchored` said. -/
def keepAnchored (node : Node) (position : Nat) : Reader Unit :=
  modify fun reading => { reading with
    anchored := reading.anchored.modify position fun kept => (kept.1, node) }

/-- The tag that a handle and a suffix stand for. -/
def expandTag (handle : List Char) (suffix : Bytes) : Reader Bytes := do
  if handle.isEmpty then return suffix
  match (← get).handles.find? (·.1 == handle) with
  | some known => return known.2 ++ suffix
  | none => throw .unknownHandle

/-- What may stand in front of a node. -/
structure Properties where
  anchor : Option (List Char)
  tag : Option Bytes

/-- Read an anchor and a tag, in either order. -/
def properties : Reader Properties := do
  match ← peek with
  | .anchor name =>
      advance
      match ← peek with
      | .tag handle suffix =>
          advance
          return ⟨some name, some (← expandTag handle suffix)⟩
      | _ => return ⟨some name, none⟩
  | .tag handle suffix =>
      advance
      let tag ← expandTag handle suffix
      match ← peek with
      | .anchor name =>
          advance
          return ⟨some name, some tag⟩
      | _ => return ⟨none, some tag⟩
  | _ => return ⟨none, none⟩

/-! ## Nodes -/

/-- Where a node stands. -/
inductive Place where
  /-- Where a block collection may begin. -/
  | block
  /-- The same for a key or value of a mapping: a sequence needs no indentation. -/
  | blockPair
  | flow
  deriving DecidableEq, Repr

/-- Read a node, unless one of these tokens shows that it is empty. -/
def unlessEmpty (shows : Token → Bool) (node : Reader Node) : Reader Node := do
  if shows (← peek) then return .empty else node

/-- Does the token show that an entry of a block sequence is empty? -/
def endsEntry (token : Token) : Bool := token == .blockEntry || token == .blockEnd

/-- Does the token show that a key or value of a block mapping is empty? -/
def endsPair (token : Token) : Bool := token == .key || token == .value || token == .blockEnd

/-- Does the token show that an entry that began with a mark is empty, in a sequence
without indentation? -/
def endsIndentless (token : Token) : Bool := token == .blockEntry || endsPair token

/-- Does the token show that a value is empty, in a flow collection with this end? -/
def endsFlowValue (ending token : Token) : Bool := token == .flowEntry || token == ending

/-- Does the token show that a key is empty, in a flow collection with this end? -/
def endsFlowKey (ending token : Token) : Bool := token == .value || endsFlowValue ending token

/-- Is the end of a flow collection next?  Otherwise the comma is passed over that
has to part an entry from one before it. -/
def atFlowEnd (ending : Token) (isFirst : Bool) : Reader Bool := do
  if (← peek) == ending then return true
  if !isFirst then expect .flowEntry
  return (← peek) == ending

mutual

/-- Read a node. -/
def node (place : Place) : Nat → Reader Node
  | 0 => throw .unexpectedToken
  | fuel + 1 => do
      if let .aliasTo name ← peek then
        advance
        return ← aliasNode name
      let properties ← properties
      let position ← properties.anchor.mapM beginAnchored
      let node ← content place properties fuel
      position.forM (keepAnchored node)
      return node

/-- Read what a node consists of behind an anchor and a tag. -/
def content (place : Place) (properties : Properties) : Nat → Reader Node
  | 0 => throw .unexpectedToken
  | fuel + 1 => do
      match place, ← peek with
      | .blockPair, .blockEntry => return .sequence (← indentlessItems fuel)
      | _, .scalar text style =>
          advance
          return .scalar (String.ofList text) style (properties.tag.filter (· != Bytes.ofAscii "!"))
      | _, .flowSequenceStart =>
          advance
          return .sequence (← flowItems true fuel)
      | _, .flowMappingStart =>
          advance
          return .mapping (← flowPairs true fuel)
      | .block, .blockSequenceStart | .blockPair, .blockSequenceStart =>
          advance
          return .sequence (← blockItems fuel)
      | .block, .blockMappingStart | .blockPair, .blockMappingStart =>
          advance
          return .mapping (← blockPairs fuel)
      | _, _ =>
          if properties.anchor.isNone && properties.tag.isNone then throw .unexpectedToken
          return .scalar "" .plain properties.tag

/-- Read the entries of a block sequence, and its end. -/
def blockItems : Nat → Reader (List Node)
  | 0 => throw .unexpectedToken
  | fuel + 1 => do
      match ← peek with
      | .blockEntry =>
          advance
          let item ← unlessEmpty endsEntry (node .block fuel)
          return item :: (← blockItems fuel)
      | _ =>
          expect .blockEnd
          return []

/-- Read the entries of a sequence without indentation: it ends where no entry
begins. -/
def indentlessItems : Nat → Reader (List Node)
  | 0 => throw .unexpectedToken
  | fuel + 1 => do
      match ← peek with
      | .blockEntry =>
          advance
          let item ← unlessEmpty endsIndentless (node .block fuel)
          return item :: (← indentlessItems fuel)
      | _ => return []

/-- Read the entries of a block mapping, and its end. -/
def blockPairs : Nat → Reader (List (Node × Node))
  | 0 => throw .unexpectedToken
  | fuel + 1 => do
      match ← peek with
      | .key =>
          advance
          let key ← unlessEmpty endsPair (node .blockPair fuel)
          let value ← blockValue fuel
          return (key, value) :: (← blockPairs fuel)
      | _ =>
          expect .blockEnd
          return []

/-- Read the value of an entry of a block mapping. -/
def blockValue : Nat → Reader Node
  | 0 => throw .unexpectedToken
  | fuel + 1 => do
      match ← peek with
      | .value =>
          advance
          unlessEmpty endsPair (node .blockPair fuel)
      | _ => return .empty

/-- Read the entries of a flow sequence, and its end. -/
def flowItems (isFirst : Bool) : Nat → Reader (List Node)
  | 0 => throw .unexpectedToken
  | fuel + 1 => do
      if ← atFlowEnd .flowSequenceEnd isFirst then
        advance
        return []
      let item ← if (← peek) == .key then flowPair fuel else node .flow fuel
      return item :: (← flowItems false fuel)

/-- Read a pair that stands for a mapping of one entry.  What shows that its key is
empty is passed over, whatever it is. -/
def flowPair : Nat → Reader Node
  | 0 => throw .unexpectedToken
  | fuel + 1 => do
      advance
      let isEmpty := endsFlowKey .flowSequenceEnd (← peek)
      let key ← if isEmpty then advance *> pure .empty else node .flow fuel
      let value ← flowValue .flowSequenceEnd fuel
      return .mapping [(key, value)]

/-- Read the entries of a flow mapping, and its end.  A node that no mark shows to be
a key has an empty value. -/
def flowPairs (isFirst : Bool) : Nat → Reader (List (Node × Node))
  | 0 => throw .unexpectedToken
  | fuel + 1 => do
      if ← atFlowEnd .flowMappingEnd isFirst then
        advance
        return []
      let isMarked := (← peek) == .key
      if isMarked then advance
      let shows := fun token => isMarked && endsFlowKey .flowMappingEnd token
      let key ← unlessEmpty shows (node .flow fuel)
      let value ← if isMarked then flowValue .flowMappingEnd fuel else pure .empty
      return (key, value) :: (← flowPairs false fuel)

/-- Read the value of an entry in a flow collection with this end. -/
def flowValue (ending : Token) : Nat → Reader Node
  | 0 => throw .unexpectedToken
  | fuel + 1 => do
      match ← peek with
      | .value =>
          advance
          unlessEmpty (endsFlowValue ending) (node .flow fuel)
      | _ => return .empty

end

/-! ## Documents -/

/-- The handles that every document has, unless it gives them another meaning. -/
def standardHandles : List (List Char × Bytes) :=
  [(['!'], Bytes.ofAscii "!"), (['!', '!'], Bytes.ofAscii "tag:yaml.org,2002:")]

/-- Read the directives of a document.  The fuel bounds their number. -/
def directives : Nat → Bool → Reader Unit
  | 0, _ => throw .unexpectedToken
  | fuel + 1, hasVersion => do
      match ← peek with
      | .version major minor =>
          if hasVersion || major != 1 || (minor != 1 && minor != 2) then throw .badDirective
          advance
          directives fuel true
      | .handle name expansion =>
          if (← get).handles.any (·.1 == name) then throw .badDirective
          advance
          modify fun reading => { reading with handles := (name, expansion) :: reading.handles }
          directives fuel hasVersion
      | _ => return

/-- Does the token begin a document that says where it begins? -/
def beginsExplicitly (token : Token) : Bool :=
  match token with
  | .version _ _ | .handle _ _ | .documentStart => true
  | _ => false

/-- Does the token show that a document is empty behind its beginning? -/
def endsDocument (token : Token) : Bool :=
  beginsExplicitly token || token == .documentEnd || token == .streamEnd

/-- Pass over marks of the end of a document.  The fuel bounds their number. -/
def documentEnds : Nat → Reader Unit
  | 0 => return
  | fuel + 1 => do
      if (← peek) == .documentEnd then
        advance
        documentEnds fuel

/-- Read the root of a document. -/
def root (fuel : Nat) : Reader Node := do
  let isExplicit := beginsExplicitly (← peek)
  if isExplicit then
    directives fuel false
    expect .documentStart
  modify fun reading => { reading with handles := reading.handles ++ standardHandles }
  unlessEmpty (fun token => isExplicit && endsDocument token) (node .block fuel)

/-- Read a text of one document at most. -/
def document (fuel : Nat) : Reader (Option Node) := do
  if (← peek) == .streamEnd then return none
  let node ← root fuel
  documentEnds fuel
  if (← peek) == .streamEnd then return some node else throw .manyDocuments

end Reader

/-- The document that a text holds. -/
def parse (text : String) : Except Malformed Document := do
  let tokens ← tokens text.toList
  let read ← (Reader.document (4 * tokens.length + 16)).run ⟨tokens, [], [], []⟩
  return ⟨read.1, read.2.anchored⟩

end EmbeddedHttp.Yaml
