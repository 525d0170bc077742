import LeafSurvey.Proofs.Files
import LeafSurvey.Proofs.Outlines

/-!
# Kinds in place of values

Changing the leaves of a document one by one leaves everything else about it as
it was: reading it, listing its leaves and counting them commute with
`Document.map`. So what a survey takes in of a file is known from the kinds of
its leaves:

* `collapse_map`, `leaves_map`, `leafCount_map`: the operations on documents do
  not look at leaves;
* `Holds.outlines_eq`: the outlines of the entries of a file are the leaves of
  its document of kinds.
-/

namespace LeafSurvey

namespace Leaf

/-- The kind of the scalar that a leaf stands for. -/
def kind : Leaf → Kind
  | null => .null
  | boolean _ => .boolean
  | text _ => .string
  | integer _ => .number
  | decimal _ => .number
  | rounded _ => .number

theorem kind_of_scalar? {a : Leaf} {value : Scalar}
    (h : a.scalar? = .ok value) :
    value.kind = a.kind := by
  cases a with
  | rounded x => cases h
  | _ =>
    cases h
    rfl

end Leaf

namespace Placed

variable {α β : Type}

/-- A value changed in its place. -/
def map (f : α → β) (l : Placed α) : Placed β :=
  ⟨l.path, f l.value, l.inArray⟩

theorem outline_of_entry? {l : Placed Leaf} {e : Entry} (h : l.entry? = .ok e) :
    e.outline = l.map Leaf.kind := by
  obtain ⟨value, hvalue, rfl⟩ := entry?_eq_ok.mp h
  rw [Entry.outline, map, Leaf.kind_of_scalar? hvalue]

end Placed

namespace Document

variable {α β : Type} (f : α → β)

theorem mapItems_eq_map (items : List (Document α)) :
    mapItems f items = items.map (map f) := by
  induction items with
  | nil => rfl
  | cons d rest ih => rw [mapItems, ih, List.map_cons]

theorem mapMembers_eq_map (members : List (String × Document α)) :
    mapMembers f members = members.map (Prod.map id (map f)) := by
  induction members with
  | nil => rfl
  | cons m rest ih =>
    rw [mapMembers, ih, List.map_cons]
    rfl

/-! ## Leaves -/

mutual

/-- The leaves of a changed document are the changed leaves, each in its
place. -/
theorem leaves_map (path : Path) (inArray : Bool) (d : Document α) :
    (d.map f).leaves path inArray
      = (d.leaves path inArray).map (Placed.map f) := by
  cases d with
  | leaf a => rfl
  | array items => exact leavesOfItems_map path items
  | object members => exact leavesOfMembers_map path inArray members

theorem leavesOfItems_map (path : Path) (items : List (Document α)) :
    leavesOfItems path (mapItems f items)
      = (leavesOfItems path items).map (Placed.map f) := by
  cases items with
  | nil => rfl
  | cons d rest =>
    rw [mapItems, leavesOfItems, leavesOfItems, List.map_append, leaves_map,
      leavesOfItems_map]

theorem leavesOfMembers_map (path : Path) (inArray : Bool)
    (members : List (String × Document α)) :
    leavesOfMembers path inArray (mapMembers f members)
      = (leavesOfMembers path inArray members).map (Placed.map f) := by
  cases members with
  | nil => rfl
  | cons m rest =>
    rw [mapMembers, leavesOfMembers, leavesOfMembers, List.map_append,
      leaves_map, leavesOfMembers_map]

end

theorem leafCount_map (d : Document α) : (d.map f).leafCount = d.leafCount := by
  rw [← length_leaves [] false, leaves_map, List.length_map, length_leaves]

/-! ## Repeated keys -/

/-- A value is put in by its key alone. -/
theorem putMember_map (key : String) (value : α) (done : List (String × α)) :
    putMember key (f value) (done.map (Prod.map id f))
      = (putMember key value done).map (Prod.map id f) := by
  induction done with
  | nil => rfl
  | cons m rest ih =>
    obtain ⟨k, v⟩ := m
    show (if k = key then (k, f value) :: rest.map _
      else (k, f v) :: putMember key (f value) (rest.map _))
      = (if k = key then (k, value) :: rest
          else (k, v) :: putMember key value rest).map _
    by_cases h : k = key
    · rw [if_pos h, if_pos h]
      rfl
    · rw [if_neg h, if_neg h, ih]
      rfl

theorem collapseMembers_map (members : List (String × α)) :
    collapseMembers (members.map (Prod.map id f))
      = (collapseMembers members).map (Prod.map id f) := by
  -- what has been put in so far is changed along with what comes
  have hfold : ∀ (members done : List (String × α)),
      (members.map (Prod.map id f)).foldl (fun done m => putMember m.1 m.2 done)
          (done.map (Prod.map id f))
        = (members.foldl (fun done m => putMember m.1 m.2 done) done).map
            (Prod.map id f) := by
    intro members
    induction members with
    | nil =>
      intro done
      rfl
    | cons m rest ih =>
      intro done
      rw [List.map_cons, List.foldl_cons, List.foldl_cons, ← ih,
        ← putMember_map]
      rfl
  exact hfold members []

mutual

theorem hasDistinctKeys_map (d : Document α) :
    (d.map f).hasDistinctKeys = d.hasDistinctKeys := by
  cases d with
  | leaf a => rfl
  | array items => exact itemsHaveDistinctKeys_map items
  | object members =>
    rw [map, hasDistinctKeys, hasDistinctKeys, membersHaveDistinctKeys_map,
      mapMembers_eq_map, List.map_map]
    rfl

theorem itemsHaveDistinctKeys_map (items : List (Document α)) :
    itemsHaveDistinctKeys (mapItems f items) = itemsHaveDistinctKeys items := by
  cases items with
  | nil => rfl
  | cons d rest =>
    rw [mapItems, itemsHaveDistinctKeys, itemsHaveDistinctKeys,
      hasDistinctKeys_map, itemsHaveDistinctKeys_map]

theorem membersHaveDistinctKeys_map (members : List (String × Document α)) :
    membersHaveDistinctKeys (mapMembers f members)
      = membersHaveDistinctKeys members := by
  cases members with
  | nil => rfl
  | cons m rest =>
    rw [mapMembers, membersHaveDistinctKeys, membersHaveDistinctKeys,
      hasDistinctKeys_map, membersHaveDistinctKeys_map]

end

mutual

/-- Which members are read does not depend on the leaves. -/
theorem collapse_map (d : Document α) :
    (d.map f).collapse = d.collapse.map f := by
  cases d with
  | leaf a => rfl
  | array items => exact congrArg array (collapseItems_map items)
  | object members =>
    rw [map, collapse, collapseEach_map, mapMembers_eq_map, collapseMembers_map,
      ← mapMembers_eq_map]
    rfl

theorem collapseItems_map (items : List (Document α)) :
    collapseItems (mapItems f items) = mapItems f (collapseItems items) := by
  cases items with
  | nil => rfl
  | cons d rest =>
    rw [mapItems, collapseItems, collapseItems, mapItems, collapse_map,
      collapseItems_map]

theorem collapseEach_map (members : List (String × Document α)) :
    collapseEach (mapMembers f members)
      = mapMembers f (collapseEach members) := by
  cases members with
  | nil => rfl
  | cons m rest =>
    rw [mapMembers, collapseEach, collapseEach, mapMembers, collapse_map,
      collapseEach_map]

end

end Document

/-! ## Files -/

/-- What a survey takes in of the entries of a file is in the kinds of the
document as written. -/
theorem Store.Holds.outlines_eq {s : Store} {file : FilePath}
    {written : Document Leaf} {es : List Entry} (h : s.Holds file written es) :
    es.map Entry.outline
      = (written.map Leaf.kind).collapse.leaves [] false := by
  rw [Document.collapse_map, Document.leaves_map]
  exact Outcome.map_of_mapM h.entries_eq fun _ _ => Placed.outline_of_entry?

end LeafSurvey
