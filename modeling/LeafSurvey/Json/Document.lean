/-!
# Documents

A document is a tree of arrays and objects over leaves of any type. An object
keeps its members in order. As written, an object may repeat a key;
`Document.collapse` keeps each key once, at its first place and with its last
value, which is how a document is read.
-/

namespace LeafSurvey

/-- A tree of arrays and objects. -/
inductive Document (α : Type) where
  | leaf (value : α)
  | array (items : List (Document α))
  | object (members : List (String × Document α))
deriving Repr

namespace Document

/-- Puts a member into an object: a key that is already there keeps its place
and takes the new value, any other key comes last. -/
def putMember {β : Type} (key : String) (value : β) :
    List (String × β) → List (String × β)
  | [] => [(key, value)]
  | (k, v) :: rest =>
    if k = key then (k, value) :: rest else (k, v) :: putMember key value rest

/-- A member that is put in takes the place of its key, or the last place when
the key is new. -/
theorem keys_putMember {β : Type} (key : String) (value : β)
    (members : List (String × β)) :
    (putMember key value members).map Prod.fst
      = if key ∈ members.map Prod.fst then members.map Prod.fst
        else members.map Prod.fst ++ [key] := by
  induction members with
  | nil => rfl
  | cons m rest ih =>
    by_cases h : m.1 = key
    · simp [putMember, h]
    · have hne : ¬key = m.1 := fun h' => h h'.symm
      by_cases hm : key ∈ rest.map Prod.fst <;> simp_all [putMember]

/-- The members with each key once. -/
def collapseMembers {β : Type} (members : List (String × β)) :
    List (String × β) :=
  members.foldl (fun done m => putMember m.1 m.2 done) []

mutual

/-- The document with each key of each object once. -/
def collapse {α : Type} : Document α → Document α
  | leaf a => leaf a
  | array items => array (collapseItems items)
  | object members => object (collapseMembers (collapseEach members))

/-- `collapse` in every item. -/
def collapseItems {α : Type} : List (Document α) → List (Document α)
  | [] => []
  | d :: rest => collapse d :: collapseItems rest

/-- `collapse` in every member's value. -/
def collapseEach {α : Type} :
    List (String × Document α) → List (String × Document α)
  | [] => []
  | (key, d) :: rest => (key, collapse d) :: collapseEach rest

end

mutual

/-- The number of leaves of a document as it stands, repeated members
included. -/
def leafCount {α : Type} : Document α → Nat
  | leaf _ => 1
  | array items => leafCountItems items
  | object members => leafCountMembers members

/-- The leaves of all items. -/
def leafCountItems {α : Type} : List (Document α) → Nat
  | [] => 0
  | d :: rest => leafCount d + leafCountItems rest

/-- The leaves of all members. -/
def leafCountMembers {α : Type} : List (String × Document α) → Nat
  | [] => 0
  | (_, d) :: rest => leafCount d + leafCountMembers rest

end

mutual

/-- The document with every leaf changed. -/
def map {α β : Type} (f : α → β) : Document α → Document β
  | leaf a => leaf (f a)
  | array items => array (mapItems f items)
  | object members => object (mapMembers f members)

/-- `map` in every item. -/
def mapItems {α β : Type} (f : α → β) : List (Document α) → List (Document β)
  | [] => []
  | d :: rest => map f d :: mapItems f rest

/-- `map` in every member's value. -/
def mapMembers {α β : Type} (f : α → β) :
    List (String × Document α) → List (String × Document β)
  | [] => []
  | (key, d) :: rest => (key, map f d) :: mapMembers f rest

end

end Document

end LeafSurvey
