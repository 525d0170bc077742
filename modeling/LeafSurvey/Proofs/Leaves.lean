import LeafSurvey.Entry
import LeafSurvey.Proofs.Outcome

/-!
# Leaves in document order

`Document.leaves` lists the leaves of a document, each with its place: the
object keys that lead to it and whether an array encloses it. This is the list
that the walk of `Document.entries` goes through:

* `exists_entry?_iff`: a leaf has an entry unless it has been rounded;
* `entries_eq_emitAll`: the walk emits the entry of every leaf in this order and
  breaks off at the first leaf without exact scalar;
* `toExcept_entries`: so the entries are all there exactly if every leaf has its
  entry;
* `length_leaves`: the leaf count of a document is the length of the list.
-/

namespace LeafSurvey

/-- A value with its place in a document. -/
structure Placed (α : Type) where
  path : Path
  value : α
  inArray : Bool
deriving DecidableEq, Repr

namespace Leaf

/-- Rounded numbers alone have no scalar. -/
theorem scalar?_eq_error {a : Leaf} {x : Binary} :
    a.scalar? = .error x ↔ a = .rounded x := by
  cases a <;> simp [scalar?]

theorem exists_scalar?_iff {a : Leaf} :
    (∃ value, a.scalar? = .ok value) ↔ ∀ x, a ≠ .rounded x := by
  cases a <;> simp [scalar?]

end Leaf

namespace Placed

/-- The entry of a leaf, or the rounded number that has none. -/
def entry? (l : Placed Leaf) : Except Binary Entry :=
  l.value.scalar?.map fun value => ⟨l.path, value, l.inArray⟩

theorem entry?_eq_ok {l : Placed Leaf} {e : Entry} :
    l.entry? = .ok e
      ↔ ∃ value, l.value.scalar? = .ok value
      ∧ e = ⟨l.path, value, l.inArray⟩ := by
  unfold entry?
  cases l.value.scalar? with
  | error x => simp [Except.map]
  | ok value => simp [Except.map, eq_comm]

theorem entry?_eq_error {l : Placed Leaf} {x : Binary} :
    l.entry? = .error x ↔ l.value = .rounded x := by
  rw [← Leaf.scalar?_eq_error]
  unfold entry?
  cases l.value.scalar? with
  | error y => simp [Except.map]
  | ok value => simp [Except.map]

theorem exists_entry?_iff {l : Placed Leaf} :
    (∃ e, l.entry? = .ok e) ↔ ∀ x, l.value ≠ .rounded x := by
  rw [← Leaf.exists_scalar?_iff]
  constructor
  · rintro ⟨e, he⟩
    obtain ⟨value, hvalue, _⟩ := entry?_eq_ok.mp he
    exact ⟨value, hvalue⟩
  · rintro ⟨value, hvalue⟩
    exact ⟨_, entry?_eq_ok.mpr ⟨value, hvalue, rfl⟩⟩

end Placed

namespace Document

variable {α : Type}

mutual

/-- The leaves of a document whose root has the given path and mark, in document
order. -/
def leaves (path : Path) (inArray : Bool) : Document α → List (Placed α)
  | leaf a => [⟨path, a, inArray⟩]
  | array items => leavesOfItems path items
  | object members => leavesOfMembers path inArray members

/-- The leaves of array items: the path stays and the mark is set. -/
def leavesOfItems (path : Path) : List (Document α) → List (Placed α)
  | [] => []
  | d :: rest => leaves path true d ++ leavesOfItems path rest

/-- The leaves of object members: each key extends the path. -/
def leavesOfMembers (path : Path) (inArray : Bool) :
    List (String × Document α) → List (Placed α)
  | [] => []
  | (key, d) :: rest =>
    leaves (path ++ [key]) inArray d ++ leavesOfMembers path inArray rest

end

theorem leavesOfItems_append (path : Path) (xs ys : List (Document α)) :
    leavesOfItems path (xs ++ ys)
      = leavesOfItems path xs ++ leavesOfItems path ys := by
  induction xs with
  | nil => rfl
  | cons d rest ih =>
    rw [List.cons_append, leavesOfItems, ih, leavesOfItems, List.append_assoc]

theorem leavesOfMembers_append (path : Path) (inArray : Bool)
    (xs ys : List (String × Document α)) :
    leavesOfMembers path inArray (xs ++ ys)
      = leavesOfMembers path inArray xs ++ leavesOfMembers path inArray ys := by
  induction xs with
  | nil => rfl
  | cons m rest ih =>
    rw [List.cons_append, leavesOfMembers, ih, leavesOfMembers,
      List.append_assoc]

/-- The leaves of an array are those of each item, one item after the other. -/
theorem leavesOfItems_eq_flatMap (path : Path) (items : List (Document α)) :
    leavesOfItems path items = items.flatMap (leaves path true) := by
  induction items with
  | nil => rfl
  | cons d rest ih => rw [leavesOfItems, ih, List.flatMap_cons]

/-- The leaves of an object are those of each member, one member after the
other. -/
theorem leavesOfMembers_eq_flatMap (path : Path) (inArray : Bool)
    (members : List (String × Document α)) :
    leavesOfMembers path inArray members
      = members.flatMap fun m => leaves (path ++ [m.1]) inArray m.2 := by
  induction members with
  | nil => rfl
  | cons m rest ih => rw [leavesOfMembers, ih, List.flatMap_cons]

/-! ## Counting -/

mutual

/-- The leaf count does not depend on the place of the root. -/
theorem length_leaves (path : Path) (inArray : Bool) (d : Document α) :
    (d.leaves path inArray).length = d.leafCount := by
  cases d with
  | leaf a => rfl
  | array items => exact length_leavesOfItems path items
  | object members => exact length_leavesOfMembers path inArray members

theorem length_leavesOfItems (path : Path) (items : List (Document α)) :
    (leavesOfItems path items).length = leafCountItems items := by
  cases items with
  | nil => rfl
  | cons d rest =>
    rw [leavesOfItems, leafCountItems, List.length_append, length_leaves,
      length_leavesOfItems]

theorem length_leavesOfMembers (path : Path) (inArray : Bool)
    (members : List (String × Document α)) :
    (leavesOfMembers path inArray members).length
      = leafCountMembers members := by
  cases members with
  | nil => rfl
  | cons m rest =>
    rw [leavesOfMembers, leafCountMembers, List.length_append, length_leaves,
      length_leavesOfMembers]

end

/-! ## Entries -/

/-- What a walk emits that meets the given leaves one after the other. -/
def emitAll : List (Placed Leaf) → Emission Binary Entry
  | [] => .empty
  | l :: rest => leafEntries l.path l.inArray l.value ++ emitAll rest

theorem emitAll_append (xs ys : List (Placed Leaf)) :
    emitAll (xs ++ ys) = emitAll xs ++ emitAll ys := by
  induction xs with
  | nil => rfl
  | cons l rest ih =>
    rw [List.cons_append, emitAll, ih, emitAll, Emission.append_assoc]

mutual

/-- The walk over a document meets its leaves in document order. -/
theorem entries_eq_emitAll (path : Path) (inArray : Bool) (d : Document Leaf) :
    d.entries path inArray = emitAll (d.leaves path inArray) := by
  cases d with
  | leaf a => rw [entries, leaves, emitAll, emitAll, Emission.append_empty]
  | array items => exact entriesOfItems_eq_emitAll path items
  | object members => exact entriesOfMembers_eq_emitAll path inArray members

theorem entriesOfItems_eq_emitAll (path : Path) (items : List (Document Leaf)) :
    entriesOfItems path items = emitAll (leavesOfItems path items) := by
  cases items with
  | nil => rfl
  | cons d rest =>
    rw [entriesOfItems, leavesOfItems, emitAll_append, entries_eq_emitAll,
      entriesOfItems_eq_emitAll]

theorem entriesOfMembers_eq_emitAll (path : Path) (inArray : Bool)
    (members : List (String × Document Leaf)) :
    entriesOfMembers path inArray members
      = emitAll (leavesOfMembers path inArray members) := by
  cases members with
  | nil => rfl
  | cons m rest =>
    rw [entriesOfMembers, leavesOfMembers, emitAll_append, entries_eq_emitAll,
      entriesOfMembers_eq_emitAll]

end

/-- A walk is whole when every leaf has its entry. -/
theorem toExcept_emitAll (ls : List (Placed Leaf)) :
    (emitAll ls).toExcept = ls.mapM Placed.entry? := by
  induction ls with
  | nil => rfl
  | cons l rest ih =>
    rw [List.mapM_cons, ← ih, emitAll, leafEntries, Placed.entry?]
    cases l.value.scalar? with
    | error x => rfl
    | ok value =>
      show ((.single ⟨l.path, value, l.inArray⟩ : Emission Binary Entry)
        ++ emitAll rest).toExcept = _
      -- what follows an emission that has not broken off decides whether the
      -- whole has
      rcases emitAll rest with ⟨items, _ | cause⟩ <;> rfl

theorem toExcept_entries (path : Path) (inArray : Bool) (d : Document Leaf) :
    (d.entries path inArray).toExcept
      = (d.leaves path inArray).mapM Placed.entry? := by
  rw [entries_eq_emitAll, toExcept_emitAll]

end Document

end LeafSurvey
