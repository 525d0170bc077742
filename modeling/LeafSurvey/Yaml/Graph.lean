import LeafSurvey.Yaml.Lexer
import LeafSurvey.Yaml.Node

/-!
# The graph of a YAML document

`Graph.ofTokens?` reads the tokens of a text that holds at most one document and
builds the graph of its nodes. A node has its number, and its anchor names it,
before what it holds is read, so an alias inside it leads back to it. Every
function answers with the rest of the tokens; the recursion is bounded by a
number of turns that grows with the number of tokens, since every nested call
has taken a token before.
-/

namespace LeafSurvey.Yaml

/-- What the reading of tokens keeps: the tokens ahead, the handles that tags
may use, the anchors, and the nodes found so far. -/
structure Reading where
  tokens : List Token
  handles : List (List Char × List Char)
  anchors : List (List Char × NodeId)
  graph : Graph
deriving Repr

/-- A computation on tokens. -/
abbrev Read := StateT Reading (Except Fault)

namespace Read

/-- Stops at tokens that form no document. -/
def malformed {α : Type} (reason : Malformed) : Read α :=
  throw (.malformed reason)

/-- The next token. A fault in the text is met here. -/
def peek : Read Token := do
  match (← get).tokens with
  | [] => return .streamEnd
  | .fault cause :: _ => throw cause
  | t :: _ => return t

/-- Passes over a token. -/
def skip : Read Unit :=
  modify fun x => { x with tokens := x.tokens.tail }

/-- Takes a token if it is the given one. -/
def takeIf (t : Token) : Read Bool := do
  if (← peek) = t then
    skip
    return true
  else return false

/-- Takes the given token. -/
def expect (t : Token) : Read Unit := do
  if ← takeIf t then return () else malformed .unexpectedToken

/-- Whether the next token is one of some. -/
def isAt (ts : List Token) : Read Bool := do
  return ts.contains (← peek)

/-! ## Properties of nodes -/

/-- The tag and the anchor in front of a node. -/
structure Properties where
  tag : Option (Option (List Char) × List Char)
  anchor : Option (List Char)

/-- Takes the properties in front of a node, in either order. -/
def properties : Read Properties := do
  match ← peek with
  | .anchor name =>
    skip
    match ← peek with
    | .tag handle suffix => skip; return ⟨some (handle, suffix), some name⟩
    | _ => return ⟨none, some name⟩
  | .tag handle suffix =>
    skip
    match ← peek with
    | .anchor name => skip; return ⟨some (handle, suffix), some name⟩
    | _ => return ⟨some (handle, suffix), none⟩
  | _ => return ⟨none, none⟩

/-- The full name of a tag. -/
def fullTag :
    Option (Option (List Char) × List Char) → Read (Option (List Char))
  | none => return none
  | some (none, suffix) => return some suffix
  | some (some handle, suffix) => do
    match (← get).handles.lookup handle with
    | some start => return some (start ++ suffix)
    | none => malformed .tagHandle

/-- Whether a tag leaves the meaning to the form of the node. -/
def isOpenTag (tag : Option (List Char)) : Bool :=
  tag = none || tag = some ['!']

/-- The tag of a scalar. A plain scalar without tag, and any scalar with an open
tag, is taken by its form. -/
def scalarTag (tag : Option (List Char)) (isPlain : Bool) (text : Literal) :
    Tag :=
  match tag with
  | none => if isPlain then .ofForm text else .text
  | some uri => if uri = ['!'] then .ofForm text else .ofUri uri

/-- The tag of a collection that is of a kind when nothing else is said. -/
def collectionTag (tag : Option (List Char)) (usual : Tag) : Tag :=
  match tag with
  | none => usual
  | some uri => if uri = ['!'] then usual else .ofUri uri

/-- Adds a node. -/
def add (n : Node) : Read NodeId := do
  let id := (← get).graph.size
  modify fun x => { x with graph := x.graph.push n }
  return id

/-- Adds a node that is still to be read, under its anchor. Each anchor is
defined once. -/
def begin (anchor : Option (List Char)) : Read NodeId := do
  let id ← add .absent
  match anchor with
  | none => return id
  | some name =>
    if ((← get).anchors.lookup name).isSome then malformed .repeatedAnchor
    modify fun x => { x with anchors := (name, id) :: x.anchors }
    return id

/-- Says what a node is. -/
def finish (id : NodeId) (tag : Tag) (content : Content) : Read NodeId := do
  modify fun x => { x with graph := x.graph.setNode id ⟨tag, content⟩ }
  return id

/-- The node that an alias names. -/
def aliased (name : List Char) : Read NodeId := do
  match (← get).anchors.lookup name with
  | some id => return id
  | none => malformed .unknownAnchor

/-! ## Nodes -/

mutual

/-- A node. Block collections are allowed where `isBlock` is set, and a sequence
that is not indented under its key where `isValue` is set. -/
def node (isBlock isValue : Bool) : Nat → Read NodeId
  | 0 => malformed .unexpectedToken
  | n + 1 => do
    match ← peek with
    | .alias name => skip; aliased name
    | _ =>
      let given ← properties
      let tag ← fullTag given.tag
      let t ← peek
      let id ← begin given.anchor
      match t with
      | .scalar text isPlain =>
        skip
        finish id (scalarTag tag isPlain text) (.scalar text)
      | .openSequence =>
        skip
        finish id (collectionTag tag .list) (.sequence (← flowItems true n))
      | .openMapping =>
        skip
        finish id (collectionTag tag .map) (.mapping (← flowEntries true n))
      | t =>
        if isValue && t = .blockEntry then
          finish id (collectionTag tag .list) (.sequence (← looseItems n))
        else if isBlock && t = .blockSequence then
          skip
          finish id (collectionTag tag .list) (.sequence (← blockItems n))
        else if isBlock && t = .blockMapping then
          skip
          finish id (collectionTag tag .map) (.mapping (← blockEntries n))
        else if given.tag.isSome || given.anchor.isSome then
          finish id (scalarTag tag true (.chars [])) (.scalar (.chars []))
        else malformed .unexpectedToken

/-- A node, or the absent one where a token of the list stands. -/
def nodeUnless (ends : List Token) (isBlock isValue : Bool) : Nat → Read NodeId
  | 0 => malformed .unexpectedToken
  | n + 1 => do
    if ← isAt ends then add .absent else node isBlock isValue n

/-- The items of a block sequence, with its end. -/
def blockItems : Nat → Read (List NodeId)
  | 0 => malformed .unexpectedToken
  | n + 1 => do
    if ← takeIf .blockEntry then
      let item ← nodeUnless [.blockEntry, .blockEnd] true false n
      return item :: (← blockItems n)
    else
      expect .blockEnd
      return []

/-- The items of a sequence that stands at the column of its key. -/
def looseItems : Nat → Read (List NodeId)
  | 0 => malformed .unexpectedToken
  | n + 1 => do
    if ← takeIf .blockEntry then
      let item ← nodeUnless [.blockEntry, .key, .value, .blockEnd] true false n
      return item :: (← looseItems n)
    else return []

/-- The entries of a block mapping, with its end. -/
def blockEntries : Nat → Read (List (NodeId × NodeId))
  | 0 => malformed .unexpectedToken
  | n + 1 => do
    match ← peek with
    | .blockEnd => skip; return []
    | .key =>
      skip
      let k ← nodeUnless [.key, .value, .blockEnd] true true n
      let v ← blockValue n
      return (k, v) :: (← blockEntries n)
    | _ => malformed .unexpectedToken

/-- The value of a block entry, absent where no colon stands. -/
def blockValue : Nat → Read NodeId
  | 0 => malformed .unexpectedToken
  | n + 1 => do
    if ← takeIf .value then nodeUnless [.key, .value, .blockEnd] true true n
    else add .absent

/-- The items in square brackets, with the closing one. An item may be a mapping
of one entry. -/
def flowItems (isFirst : Bool) : Nat → Read (List NodeId)
  | 0 => malformed .unexpectedToken
  | n + 1 => do
    if ← takeIf .closeSequence then return []
    if !isFirst then expect .flowEntry
    match ← peek with
    | .key =>
      skip
      let k ← nodeUnless [.value, .flowEntry, .closeSequence] false false n
      let v ← flowValue .closeSequence n
      let pair ← add ⟨.map, .mapping [(k, v)]⟩
      return pair :: (← flowItems false n)
    | .closeSequence => skip; return []
    | _ =>
      let item ← node false false n
      return item :: (← flowItems false n)

/-- The entries in curly brackets, with the closing one. -/
def flowEntries (isFirst : Bool) : Nat → Read (List (NodeId × NodeId))
  | 0 => malformed .unexpectedToken
  | n + 1 => do
    if ← takeIf .closeMapping then return []
    if !isFirst then expect .flowEntry
    match ← peek with
    | .key =>
      skip
      let k ← nodeUnless [.value, .flowEntry, .closeMapping] false false n
      let v ← flowValue .closeMapping n
      return (k, v) :: (← flowEntries false n)
    | .closeMapping => skip; return []
    | _ =>
      let k ← node false false n
      let v ← add .absent
      return (k, v) :: (← flowEntries false n)

/-- The value of an entry in brackets, absent where no colon stands. -/
def flowValue (close : Token) : Nat → Read NodeId
  | 0 => malformed .unexpectedToken
  | n + 1 => do
    if ← takeIf .value then nodeUnless [.flowEntry, close] false false n
    else add .absent

end

/-! ## Documents -/

/-- Takes the directives before a document; the answer tells whether there were
any. -/
def directives : Nat → Bool → Read Unit
  | 0, _ => return ()
  | n + 1, hasVersion => do
    match ← peek with
    | .directive (.version major _) =>
      skip
      if hasVersion || major ≠ 1 then malformed .version
      directives n true
    | .directive (.handle name start) =>
      skip
      if ((← get).handles.lookup name).isSome then malformed .tagHandle
      modify fun x => { x with handles := (name, start) :: x.handles }
      directives n hasVersion
    | .directive .other => skip; directives n hasVersion
    | _ => return ()

/-- The handles that every document may use. -/
def usualHandles : List (List Char × List Char) :=
  [(['!'], ['!']), (['!', '!'], Tag.standard)]

/-- Passes over the marks that end a document. -/
def skipEnds : Nat → Read Unit
  | 0 => return ()
  | n + 1 => do
    if ← takeIf .documentEnd then skipEnds n

/-- Whether a directive stands next. -/
def atDirective : Read Bool := do
  match ← peek with
  | .directive _ => return true
  | _ => return false

/-- The content of a document that a mark has opened. -/
def content (turns : Nat) : Read NodeId := do
  if (← atDirective) || (← isAt [.documentStart, .documentEnd, .streamEnd]) then
    add .absent
  else node true false turns

/-- The only document of a text, if there is one. -/
def document (turns : Nat) : Read (Option NodeId) := do
  if (← atDirective) || (← isAt [.documentStart]) then
    directives turns false
    modify fun x => { x with handles := x.handles ++ usualHandles }
    expect .documentStart
    let root ← content turns
    skipEnds turns
    if ← isAt [.streamEnd] then return some root else malformed .secondDocument
  else if ← isAt [.streamEnd] then return none
  else
    modify fun x => { x with handles := usualHandles }
    let root ← node true false turns
    skipEnds turns
    if ← isAt [.streamEnd] then return some root else malformed .secondDocument

end Read

namespace Graph

/-- The graph of the document that tokens form, with its root, if they form one
at all. -/
def ofTokens? (ts : List Token) : Except Fault (Option (Graph × NodeId)) := do
  let (root, x) ← (Read.document (4 * ts.length + 4)).run ⟨ts, [], [], #[]⟩
  return root.map fun id => (x.graph, id)

end Graph

end LeafSurvey.Yaml
