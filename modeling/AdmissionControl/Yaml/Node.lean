import AdmissionControl.Limits
import AdmissionControl.Yaml.Tag
import AdmissionControl.Yaml.Token

/-!
# Nodes

A document is a graph of nodes: scalars, sequences and mappings with tags.  A node that has an
anchor can stand in several places, and even inside itself, so the nodes are numbered and
collections hold numbers.

* `Graph.ofTokens?` builds the graph of the one document of a token list; none if it is empty.
* `Grammar.node` and the functions with it follow the grammar of tokens.  Every call has less fuel
  than its caller, and the number of tokens bounds how much is needed.
-/

namespace AdmissionControl.Yaml

abbrev NodeId := Nat

inductive Content
  | scalar (text : Text)
  | sequence (items : List NodeId)
  | mapping (members : List (NodeId × NodeId))
deriving Repr, Inhabited

structure Node where
  tag : Tag
  content : Content
deriving Repr, Inhabited

structure Graph where
  nodes : Array Node
  root : NodeId
deriving Repr, Inhabited

namespace Graph

def node? (g : Graph) (id : NodeId) : Option Node := g.nodes[id]?

def setNode (g : Graph) (id : NodeId) (node : Node) : Graph :=
  { g with nodes := g.nodes.setIfInBounds id node }

end Graph

namespace Grammar

/-- The tokens that are left, the nodes so far and the names in force. -/
structure State where
  tokens : List Token
  /-- What stopped the reading of tokens, if anything did. -/
  failure : Option Error
  nodes : Array Node
  anchors : List (Text × NodeId)
  /-- What tag handles stand for. -/
  handles : List (Text × Text)

abbrev Parse := StateT State (Except Error)

def malformed {α : Type} (reason : String) : Parse α := throw (.malformed reason)

/-- The next token, which stays where it is. -/
def peek : Parse Token := do
  let s ← get
  match s.tokens, s.failure with
  | token :: _, _ => return token
  | [], some e => throw e
  | [], none => return .streamEnd

def drop : Parse Unit := modify fun s => { s with tokens := s.tokens.drop 1 }

/-- Drops the next token if it is the given one. -/
def accept (token : Token) : Parse Bool := do
  if (← peek) = token then
    drop
    return true
  else return false

def addNode (node : Node) : Parse NodeId := do
  let s ← get
  set { s with nodes := s.nodes.push node }
  return s.nodes.size

def setNode (id : NodeId) (node : Node) : Parse Unit :=
  modify fun s => { s with nodes := s.nodes.setIfInBounds id node }

/-! ### Properties of a node -/

structure Properties where
  anchor : Option Text
  /-- The name of a tag. -/
  tag : Option Text

def resolveTag (handle : Option Text) (suffix : Text) : Parse Text := do
  match handle with
  | none => return suffix
  | some handle =>
    match (← get).handles.lookup handle with
    | some start => return start ++ suffix
    | none => malformed "a tag handle is not declared"

def anchorHere? : Parse (Option Text) := do
  match ← peek with
  | .anchor name =>
    drop
    return some name
  | _ => return none

/-- A tag is looked up only when both properties were read. -/
def tagHere? : Parse (Option (Option Text × Text)) := do
  match ← peek with
  | .tag handle suffix =>
    drop
    return some (handle, suffix)
  | _ => return none

/-- An anchor and a tag, in either order, both optional. -/
def properties : Parse Properties := do
  let first ← anchorHere?
  let tag ← tagHere?
  let anchor ← match first with
    | some name => pure (some name)
    | none => if tag.isSome then anchorHere? else pure none
  match tag with
  | none => return ⟨anchor, none⟩
  | some (handle, suffix) => return ⟨anchor, some (← resolveTag handle suffix)⟩

/-- Gives the name of an anchor to a node. -/
def bind (anchor : Option Text) (id : NodeId) : Parse Unit :=
  match anchor with
  | none => return ()
  | some name => modify fun s => { s with anchors := (name, id) :: s.anchors }

def checkAnchor (anchor : Option Text) : Parse Unit := do
  match anchor with
  | none => return ()
  | some name =>
    if ((← get).anchors.lookup name).isSome then malformed "an anchor is defined twice"

def addScalar (p : Properties) (text : Text) (plain : Bool) : Parse NodeId := do
  checkAnchor p.anchor
  let tag := match p.tag with
    | some name => if name = Tag.unspecific then implicitTag text else Tag.named name
    | none => if plain then implicitTag text else .text
  let id ← addNode ⟨tag, .scalar text⟩
  bind p.anchor id
  return id

/-- A node that is left out. -/
def addEmpty : Parse NodeId := addScalar ⟨none, none⟩ [] true

def collectionTag (p : Properties) (default : Tag) : Tag :=
  match p.tag with
  | some name => if name = Tag.unspecific then default else Tag.named name
  | none => default

/-- Adds a collection, first without its members so that these can refer to it. -/
def addCollection (p : Properties) (default : Tag) (read : Parse Content) : Parse NodeId := do
  checkAnchor p.anchor
  let tag := collectionTag p default
  let id ← addNode ⟨tag, .sequence []⟩
  bind p.anchor id
  let content ← read
  setNode id ⟨tag, content⟩
  return id

def addSequence (p : Properties) (read : Parse (List NodeId)) : Parse NodeId :=
  addCollection p .sequence (return .sequence (← read))

def addMapping (p : Properties) (read : Parse (List (NodeId × NodeId))) : Parse NodeId :=
  addCollection p .mapping (return .mapping (← read))

/-! ### The grammar -/

/-- Where a node stands: block collections may start there, and a sequence without indentation. -/
structure Place where
  block : Bool
  indentless : Bool

def inBlock : Place := ⟨true, false⟩

def inMapping : Place := ⟨true, true⟩

def inFlow : Place := ⟨false, false⟩

def outOfFuel {α : Type} : Parse α := malformed "the document does not end"

mutual

/-- A node.  `depth` is how many nodes may still nest. -/
def node (fuel depth : Nat) (place : Place) : Parse NodeId := do
  match fuel, depth with
  | 0, _ => outOfFuel
  | _ + 1, 0 => throw (.fault .yamlTooDeep)
  | fuel + 1, depth + 1 =>
    match ← peek with
    | .alias name =>
      drop
      match (← get).anchors.lookup name with
      | some id => return id
      | none => malformed "an alias has no anchor"
    | _ =>
      let p ← properties
      match ← peek with
      | .blockEntry =>
        if place.indentless then addSequence p (indentlessItems fuel depth)
        else emptyNode p
      | .scalar text plain =>
        drop
        addScalar p text plain
      | .flowSequenceStart =>
        drop
        addSequence p (flowItems fuel depth true)
      | .flowMappingStart =>
        drop
        addMapping p (flowMembers fuel depth true)
      | .blockSequenceStart =>
        if place.block then
          drop
          addSequence p (blockItems fuel depth)
        else emptyNode p
      | .blockMappingStart =>
        if place.block then
          drop
          addMapping p (blockMembers fuel depth)
        else emptyNode p
      | _ => emptyNode p

/-- A node that consists of its properties alone. -/
def emptyNode (p : Properties) : Parse NodeId := do
  if p.anchor.isSome || p.tag.isSome then addScalar p [] p.tag.isNone
  else malformed "a node is missing"

/-- The node at a place, or an empty one if one of the given tokens is next. -/
def nodeUnless (fuel depth : Nat) (place : Place) (stops : List Token) : Parse NodeId := do
  match fuel with
  | 0 => outOfFuel
  | fuel + 1 =>
    if stops.contains (← peek) then addEmpty else node fuel depth place

def blockItems (fuel depth : Nat) : Parse (List NodeId) := do
  match fuel with
  | 0 => outOfFuel
  | fuel + 1 =>
    if ← accept .blockEntry then
      let item ← nodeUnless fuel depth inBlock [.blockEntry, .blockEnd]
      let items ← blockItems fuel depth
      return item :: items
    else if ← accept .blockEnd then return []
    else malformed "a sequence entry is missing"

def indentlessItems (fuel depth : Nat) : Parse (List NodeId) := do
  match fuel with
  | 0 => outOfFuel
  | fuel + 1 =>
    if ← accept .blockEntry then
      let item ← nodeUnless fuel depth inBlock [.blockEntry, .key, .value, .blockEnd]
      let items ← indentlessItems fuel depth
      return item :: items
    else return []

def blockMembers (fuel depth : Nat) : Parse (List (NodeId × NodeId)) := do
  match fuel with
  | 0 => outOfFuel
  | fuel + 1 =>
    if ← accept .key then
      let key ← nodeUnless fuel depth inMapping [.key, .value, .blockEnd]
      let value ← if ← accept .value then nodeUnless fuel depth inMapping [.key, .value, .blockEnd]
        else addEmpty
      let members ← blockMembers fuel depth
      return (key, value) :: members
    else if ← accept .blockEnd then return []
    else malformed "a mapping key is missing"

def flowItems (fuel depth : Nat) (first : Bool) : Parse (List NodeId) := do
  match fuel with
  | 0 => outOfFuel
  | fuel + 1 =>
    if ← accept .flowSequenceEnd then return []
    else
      if !first then
        if !(← accept .flowEntry) then malformed "a comma is missing in a sequence"
      match ← peek with
      | .flowSequenceEnd =>
        drop
        return []
      | .key =>
        let item ← singleMember fuel depth
        let items ← flowItems fuel depth false
        return item :: items
      | _ =>
        let item ← node fuel depth inFlow
        let items ← flowItems fuel depth false
        return item :: items

/-- A mapping of one member, written without braces inside a sequence. -/
def singleMember (fuel depth : Nat) : Parse NodeId := do
  match fuel, depth with
  | 0, _ => outOfFuel
  | _ + 1, 0 => throw (.fault .yamlTooDeep)
  | fuel + 1, depth + 1 =>
    addMapping ⟨none, none⟩ do
      drop
      let key ← nodeUnless fuel depth inFlow [.value, .flowEntry, .flowSequenceEnd]
      let value ← if ← accept .value then
          nodeUnless fuel depth inFlow [.flowEntry, .flowSequenceEnd]
        else addEmpty
      return [(key, value)]

def flowMembers (fuel depth : Nat) (first : Bool) : Parse (List (NodeId × NodeId)) := do
  match fuel with
  | 0 => outOfFuel
  | fuel + 1 =>
    if ← accept .flowMappingEnd then return []
    else
      if !first then
        if !(← accept .flowEntry) then malformed "a comma is missing in a mapping"
      match ← peek with
      | .flowMappingEnd =>
        drop
        return []
      | .key =>
        drop
        let key ← nodeUnless fuel depth inFlow [.value, .flowEntry, .flowMappingEnd]
        let value ← if ← accept .value then
            nodeUnless fuel depth inFlow [.flowEntry, .flowMappingEnd]
          else addEmpty
        let members ← flowMembers fuel depth false
        return (key, value) :: members
      | _ =>
        let key ← node fuel depth inFlow
        let value ← addEmpty
        let members ← flowMembers fuel depth false
        return (key, value) :: members

end

/-! ### The document -/

def defaultHandles : List (Text × Text) :=
  [("!", "!"), ("!!", Tag.standardStart)]

/-- Reads directives; `version` says whether one gave a version. -/
def directives (fuel : Nat) (version : Bool) (handles : List (Text × Text)) :
    Parse (List (Text × Text)) := do
  match fuel with
  | 0 => outOfFuel
  | fuel + 1 =>
    match ← peek with
    | .versionDirective major =>
      drop
      if version then malformed "two directives give a version"
      else if major ≠ 1 then malformed "the version is not supported"
      else directives fuel true handles
    | .tagDirective handle start =>
      drop
      if (handles.lookup handle).isSome then malformed "a tag handle is declared twice"
      else directives fuel version ((handle, start) :: handles)
    | .otherDirective =>
      drop
      directives fuel version handles
    | _ => return handles ++ defaultHandles

def dropDocumentEnds (fuel : Nat) : Parse Unit := do
  match fuel with
  | 0 => return ()
  | fuel + 1 => if ← accept .documentEnd then dropDocumentEnds fuel

/-- The directives of a document and the mark that starts it. -/
def documentStart (fuel : Nat) : Parse Unit := do
  let handles ← directives fuel false []
  if ← accept .documentStart then modify fun s => { s with handles := handles }
  else malformed "a document does not start with its mark"

/-- The root of a document that starts with a mark; the document may be empty. -/
def markedRoot (fuel depth : Nat) : Parse NodeId := do
  match ← peek with
  | .versionDirective _ | .tagDirective .. | .otherDirective | .documentStart | .documentEnd
  | .streamEnd => addEmpty
  | _ => node fuel depth inBlock

/-- The root of the only document, if there is one. -/
def stream [Limits] (fuel : Nat) : Parse (Option NodeId) := do
  match ← peek with
  | .streamEnd => return none
  | token =>
    let root ← match token with
      | .versionDirective _ | .tagDirective .. | .otherDirective | .documentStart => do
        documentStart fuel
        markedRoot fuel Limits.yaml
      | _ => node fuel Limits.yaml inBlock
    dropDocumentEnds fuel
    if (← peek) = .streamEnd then return some root
    else
      documentStart fuel
      malformed "a second document follows"

end Grammar

namespace Graph

/-- Calls of the grammar between two tokens, at most. -/
def callsPerToken : Nat := 8

def ofTokens? [Limits] (tokens : List Token) (failure : Option Error) :
    Except Error (Option Graph) := do
  let fuel := callsPerToken * (tokens.length + 4)
  let (root, s) ←
    (Grammar.stream fuel).run ⟨tokens, failure, #[], [], Grammar.defaultHandles⟩
  return root.map fun root => ⟨s.nodes, root⟩

end Graph

end AdmissionControl.Yaml
