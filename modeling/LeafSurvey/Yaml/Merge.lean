import LeafSurvey.Yaml.Node

/-!
# Merge keys

A merge key brings the entries of other mappings into its own, in front of them,
so that its own win. `Merge.expand` replaces the merge keys of a mapping, and
before them those of the mappings they name; a mapping that names itself brings
what it has when the key is gone. A key that marks a default value is a text
from then on. Every turn takes a merge key out of the graph, which bounds the
number of turns.
-/

namespace LeafSurvey.Yaml

/-- A computation that changes a graph. -/
abbrev Merge := StateT Graph (Except Fault)

namespace Merge

/-- Takes the first merge key out of a mapping and answers its value. -/
def takeKey (id : NodeId) : Merge (Option NodeId) := do
  let g ← get
  let es := g.entries id
  match es.findIdx? fun e => g.tag e.1 = .merge with
  | none => return none
  | some i =>
    set (g.setEntries id (es.eraseIdx i))
    return (es[i]?).map (·.2)

/-- Makes texts of the keys that mark default values. -/
def settleDefaults (id : NodeId) : Merge Unit :=
  modify fun g => (g.entries id).foldl
    (fun g e => if g.tag e.1 = .default then g.setTag e.1 .text else g) g

/-- Puts entries in front of those of a mapping. -/
def prepend (id : NodeId) (es : List (NodeId × NodeId)) : Merge Unit := do
  if !es.isEmpty then modify fun g => g.setEntries id (es ++ g.entries id)

/-- The entries of a mapping once its own merge keys are replaced. -/
def entriesAfter (expandOne : NodeId → Merge Unit) (id : NodeId) :
    Merge (List (NodeId × NodeId)) := do
  match (← get).content id with
  | .mapping _ =>
    expandOne id
    return (← get).entries id
  | _ => throw (.malformed .merge)

/-- The entries that the value of a merge key brings: those of a mapping, or
those of a sequence of mappings, of which the first wins. -/
def bring (expandOne : NodeId → Merge Unit) (value : NodeId) :
    Merge (List (NodeId × NodeId)) := do
  match (← get).content value with
  | .sequence items =>
    return (← items.mapM (entriesAfter expandOne)).reverse.flatten
  | _ => entriesAfter expandOne value

mutual

/-- Replaces the merge keys of a mapping by the entries they bring. -/
def expandWithin : Nat → NodeId → Merge Unit
  | 0, _ => return ()
  | n + 1, id => do
    let brought ← gather n id []
    settleDefaults id
    prepend id brought

/-- Takes the merge keys out of a mapping, one after the other, and collects
what they bring. -/
def gather :
    Nat → NodeId → List (NodeId × NodeId) → Merge (List (NodeId × NodeId))
  | 0, _, brought => return brought
  | n + 1, id, brought => do
    match ← takeKey id with
    | none => return brought
    | some value => gather n id (brought ++ (← bring (expandWithin n) value))

end

/-- Replaces the merge keys of a mapping by the entries they bring. -/
def expand (id : NodeId) : Merge Unit := do
  expandWithin (2 * (← get).entryCount + 2) id

end Merge

end LeafSurvey.Yaml
