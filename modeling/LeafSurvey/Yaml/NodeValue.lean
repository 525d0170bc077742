import LeafSurvey.Yaml.Graph
import LeafSurvey.Yaml.Intake
import LeafSurvey.Yaml.Merge
import LeafSurvey.Yaml.ScalarValue

/-!
# Values of nodes

`NodeValues.ofGraph?` gives values to the nodes of a document. It starts at the
root. A scalar has its value as soon as it is met, a list or a mapping waits:
what it holds is looked at when everything that has been waiting before it is
done. This order decides which of several faults is found, and it lets a list or
a mapping hold itself. `NodeValues.value` then writes the value of a node out;
where a list or a mapping stands inside itself, that is only marked.
-/

namespace LeafSurvey.Yaml

/-- What is known of the value of a node. -/
inductive Made where
  /-- A value that is no collection. One that is not a number may be a value of
  its own, equal to no other. -/
  | single (value : Value) (isOwn : Bool)
  | list
  | pairs
  | set
  | map
deriving Repr

/-- The nodes of a document with what is known of their values, and the
collections that wait. -/
structure Making where
  graph : Graph
  made : List (NodeId × Made)
  waiting : List NodeId
deriving Repr

/-- A computation that gives values to nodes. -/
abbrev Make := StateT Making (Except Fault)

namespace Make

/-- Stops at a node that has no value. -/
def malformed {α : Type} (reason : Malformed) : Make α :=
  throw (.malformed reason)

/-- The text of a node that is to be a scalar: its own, or that of the default
value in it. -/
def literal? (g : Graph) : Nat → NodeId → Except Fault Literal
  | 0, _ => .error (.value .endlessDefault)
  | n + 1, id =>
    match g.content id with
    | .scalar text => .ok text
    | .sequence _ => .error (.malformed .nodeKind)
    | .mapping es =>
      match es.find? fun e => g.tag e.1 = .default with
      | some e => literal? g n e.2
      | none => .error (.malformed .nodeKind)

/-- Whether a value is the one that is not a number. -/
def isNan : Value → Bool
  | .float .nan => true
  | _ => false

/-- The value of a node under a tag for scalars; `none` under any other tag. A
date is read off the node itself, so it cannot be a default value. -/
def single? (g : Graph) (id : NodeId) : Option (Except Fault Made) :=
  (scalarValue? (g.tag id) (.chars [])).map fun _ => do
    let text ← literal? g (g.size + 1) id
    match g.tag id, g.content id with
    | .date, .mapping _ => throw (.value .dateInMapping)
    | t, _ =>
      let value ← (scalarValue? t text).getD (.ok .null)
      return .single value (isNan value && !isNanForm text.toChars)

/-- What is known of the value of a node, which is met here. -/
def meet (id : NodeId) : Make Made := do
  let x ← get
  match x.made.lookup id with
  | some m => return m
  | none =>
    let m ← match x.graph.tag id, single? x.graph id with
      | .list, _ => pure Made.list
      | .pairs, _ => pure Made.pairs
      | .set, _ => pure Made.set
      | .map, _ => pure Made.map
      | _, some result => (result : Except Fault Made)
      | _, none => malformed .unknownTag
    let isSingle := match m with
      | .single _ _ => true
      | _ => false
    set { x with
      made := (id, m) :: x.made
      waiting := x.waiting ++ if isSingle then [] else [id] }
    return m

/-- Replaces the merge keys of a mapping. -/
def expand (id : NodeId) : Make Unit := do
  let x ← get
  let ((), graph) ← ((Merge.expand id).run x.graph :
      Except Fault (Unit × Graph))
  set { x with graph }

/-- Meets the key and the value of an entry. A collection is no key. -/
def meetEntry (e : NodeId × NodeId) : Make Unit := do
  match ← meet e.1 with
  | .single _ _ => discard (meet e.2)
  | _ => malformed .key

/-- Meets the key and the value of a mapping that is a pair. Any key will do. -/
def meetPair (id : NodeId) : Make Unit := do
  match (← get).graph.content id with
  | .mapping [e] =>
    discard (meet e.1)
    discard (meet e.2)
  | _ => malformed .pair

/-- Meets what a mapping holds in place of its merge keys and beside them. -/
def meetEntries (id : NodeId) : Make Unit := do
  expand id
  ((← get).graph.entries id).forM meetEntry

/-- Meets what a collection holds. -/
def look (id : NodeId) : Make Unit := do
  let g := (← get).graph
  match g.tag id, g.content id with
  | .list, .sequence items => items.forM fun item => discard (meet item)
  | .pairs, .sequence items => items.forM meetPair
  | .set, .mapping _ => meetEntries id
  | .map, .mapping _ => meetEntries id
  | _, _ => malformed .nodeKind

/-- Looks at the collections that wait, and at those that come to wait
meanwhile. Each waits once. -/
def lookAtAll : Nat → Make Unit
  | 0 => return ()
  | n + 1 => do
    match (← get).waiting with
    | [] => return ()
    | id :: rest =>
      modify fun x => { x with waiting := rest }
      look id
      lookAtAll n

end Make

/-- The nodes of a document with their values. -/
structure NodeValues where
  graph : Graph
  made : List (NodeId × Made)
  root : NodeId
deriving Repr

namespace NodeValues

/-- Gives values to the nodes of a graph, from its root on. -/
def ofGraph? (g : Graph) (root : NodeId) : Except Fault NodeValues := do
  let ((), x) ← (do
      discard (Make.meet root)
      Make.lookAtAll (g.size + 1) : Make Unit).run ⟨g, [], []⟩
  return ⟨x.graph, x.made, root⟩

/-- The items of a list. -/
def items (d : NodeValues) (id : NodeId) : List NodeId :=
  match d.graph.content id with
  | .sequence items => items
  | _ => []

/-- The keys and the values of the mappings that are the items of a list. -/
def pairs (d : NodeValues) (id : NodeId) : List (NodeId × NodeId) :=
  (d.items id).flatMap d.graph.entries

/-- A key of a mapping: the node that wrote it and its value. -/
structure Key where
  node : NodeId
  value : Value
  isOwn : Bool

/-- The key that a node writes. -/
def key (d : NodeValues) (id : NodeId) : Key :=
  match d.made.lookup id with
  | some (.single value isOwn) => ⟨id, value, isOwn⟩
  | _ => ⟨id, .null, false⟩

/-- Whether two keys are the same. One that is a value of its own is the same as
itself only. -/
def Key.same (a b : Key) : Bool :=
  if a.isOwn || b.isOwn then a.node == b.node else a.value.sameKey b.value

/-- Puts an entry into a mapping: a key that is there keeps its place and its
spelling and takes the new value, any other comes last. -/
def putEntry (k : Key) (v : NodeId) : List (Key × NodeId) → List (Key × NodeId)
  | [] => [(k, v)]
  | e :: rest => if e.1.same k then (e.1, v) :: rest else e :: putEntry k v rest

/-- The entries of a mapping by their keys. -/
def keyed (d : NodeValues) (id : NodeId) : List (Value × NodeId) :=
  ((d.graph.entries id).foldl (fun done e => putEntry (d.key e.1) e.2 done)
    []).map fun e => (e.1.value, e.2)

/-- What stands around a place: a collection, or one of the pairs of a list by
its number. -/
inductive Enclosure where
  | collection (id : NodeId)
  | pair (id : NodeId) (number : Nat)
deriving DecidableEq

/-- The value of a node inside some collections. Every collection is inside
others of the graph, so their number bounds the depth. -/
def valueWithin (order : SetOrder) (d : NodeValues) :
    Nat → List Enclosure → NodeId → Value
  | 0, _, _ => .null
  | n + 1, around, id =>
    let isAround := around.contains (.collection id)
    let inner := d.valueWithin order n (.collection id :: around)
    match d.made.lookup id with
    | some (.single value _) => value
    | some .list =>
      if isAround then .enclosingList else .list ((d.items id).map inner)
    | some .pairs =>
      if isAround then .enclosingList
      else .list ((d.pairs id).mapIdx fun i e =>
        if around.contains (.pair id i) then .enclosingPair
        else .pair (inner e.1) (inner e.2))
    | some .set => .set (order.arrange ((d.keyed id).map (·.1)))
    | some .map =>
      if isAround then .enclosingMap
      else .map ((d.keyed id).map fun e => (e.1, inner e.2))
    | none => .null

/-- The value of a node. -/
def value (order : SetOrder) (d : NodeValues) (id : NodeId) : Value :=
  d.valueWithin order (d.graph.size + 1) [] id

/-- A pair of a list when it stands for itself. -/
def pairValue (order : SetOrder) (d : NodeValues) (id : NodeId) (number : Nat)
    (e : NodeId × NodeId) : Value :=
  let inner := d.valueWithin order (d.graph.size + 1) [.pair id number]
  .pair (inner e.1) (inner e.2)

/-- The value of a node when its items stand for themselves: none of them is
marked as inside the list that the node is. -/
def opened (order : SetOrder) (d : NodeValues) (id : NodeId) : Value :=
  match d.made.lookup id with
  | some .list => .list ((d.items id).map (d.value order))
  | some .pairs => .list ((d.pairs id).mapIdx (d.pairValue order id))
  | _ => d.value order id

/-- The entries of a node that is a mapping. -/
def entries? (d : NodeValues) (id : NodeId) : Option (List (Value × NodeId)) :=
  match d.made.lookup id with
  | some .map => some (d.keyed id)
  | _ => none

end NodeValues

/-- The nodes that the bytes of a file write, with their values; `none` for an
empty text. -/
def read? (bytes : ByteArray) : Except Fault (Option NodeValues) := do
  let source := Source.ofBytes bytes
  match ← Graph.ofTokens? (tokens source.chars source.beyond) with
  | none => return none
  | some (g, root) => return some (← NodeValues.ofGraph? g root)

end LeafSurvey.Yaml
