import LeafSurvey.Yaml.Tag

/-!
# Nodes of a YAML document

A document is a graph of scalars, sequences and mappings. Nodes are known by
number, so that an alias can name a node again, also one that stands around it.
-/

namespace LeafSurvey.Yaml

/-- The number of a node in its graph. -/
abbrev NodeId := Nat

/-- What a node holds. -/
inductive Content where
  | scalar (text : Literal)
  | sequence (items : List NodeId)
  | mapping (entries : List (NodeId × NodeId))
deriving DecidableEq, Repr

/-- A node: what it stands for, and what it holds. -/
structure Node where
  tag : Tag
  content : Content
deriving DecidableEq, Repr

namespace Node

/-- A node that is not written. -/
def absent : Node := ⟨.null, .scalar (.chars [])⟩

end Node

/-- The nodes of a document, by number. -/
abbrev Graph := Array Node

namespace Graph

/-- The node of a number. -/
def node (g : Graph) (id : NodeId) : Node :=
  g[id]?.getD .absent

/-- What a node stands for. -/
def tag (g : Graph) (id : NodeId) : Tag :=
  (g.node id).tag

/-- What a node holds. -/
def content (g : Graph) (id : NodeId) : Content :=
  (g.node id).content

/-- The entries of a mapping. -/
def entries (g : Graph) (id : NodeId) : List (NodeId × NodeId) :=
  match g.content id with
  | .mapping es => es
  | _ => []

/-- The graph with another node under a number. -/
def setNode (g : Graph) (id : NodeId) (n : Node) : Graph :=
  g.setIfInBounds id n

/-- The graph with other entries in a mapping. -/
def setEntries (g : Graph) (id : NodeId) (es : List (NodeId × NodeId)) :
    Graph :=
  g.setNode id ⟨g.tag id, .mapping es⟩

/-- The graph with another tag on a node. -/
def setTag (g : Graph) (id : NodeId) (t : Tag) : Graph :=
  g.setNode id ⟨t, g.content id⟩

/-- The number of entries in all mappings. -/
def entryCount (g : Graph) : Nat :=
  g.foldl (fun n node => match node.content with
    | .mapping es => n + es.length
    | _ => n) 0

end Graph

end LeafSurvey.Yaml
