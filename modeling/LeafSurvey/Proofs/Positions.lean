import LeafSurvey.Proofs.Leaves
import Mathlib.Data.List.Forall2
import Mathlib.Data.List.Lex
import Mathlib.Data.List.Nodup

/-!
# Positions in a document

A position says which way to go down from the root, one item of an array or one
member of an object at each step, so `Document.at?` finds what lies there
without walking through the document. A walk lists the leaves in the order of
their positions, and what it says of a leaf is read off the position: the keys
on the way are the path, and an array on the way sets the mark.

* `leaves_eq_map_spots`: the walk goes through the leaves position by position;
* `mem_spots`, `pairwise_spots`: each position of a leaf is met once, in
  document order;
* `Enumerates.eq_spots`: there is one such enumeration;
* `entries_under`: where a walk starts changes paths and marks alone;
* `entries_at_leaf_positions`: the entries of a document with exact leaves, one
  for each position.
-/

namespace LeafSurvey

namespace Document

variable {α : Type}

/-! ## Positions -/

/-- One step down in a document: to an item of an array, or to a member of an
object. -/
inductive Step where
  | item (index : Nat)
  | member (index : Nat) (key : String)
deriving DecidableEq, Repr

namespace Step

/-- The place among the items or the members. -/
def index : Step → Nat
  | item i => i
  | member i _ => i

/-- The key that a step adds to the path. -/
def key? : Step → Option String
  | item _ => none
  | member _ key => some key

/-- Whether the step leaves an array. -/
def isItem : Step → Bool
  | item _ => true
  | member _ _ => false

end Step

/-- The steps from the root to a place in a document. -/
abbrev Position := List Step

namespace Position

/-- The object keys on the way. -/
def keys (p : Position) : Path :=
  p.filterMap Step.key?

/-- Whether an array lies on the way. -/
def passesArray (p : Position) : Bool :=
  p.any Step.isItem

theorem passesArray_iff {p : Position} :
    p.passesArray = true ↔ ∃ i, Step.item i ∈ p := by
  rw [passesArray, List.any_eq_true]
  constructor
  · rintro ⟨s, hs, hitem⟩
    cases s with
    | item i => exact ⟨i, hs⟩
    | member i key => cases hitem
  · rintro ⟨i, hi⟩
    exact ⟨.item i, hi, rfl⟩

/-- Document order: the first steps that differ lead to an earlier place and to
a later one. -/
def Before (p q : Position) : Prop :=
  List.Lex (fun s t => s.index < t.index) p q

theorem Before.asymm {p q : Position} (h : p.Before q) : ¬q.Before p := by
  have hindex : Std.Asymm fun s t : Step => s.index < t.index :=
    ⟨fun _ _ => Nat.lt_asymm⟩
  exact (List.Lex.asymm _).asymm _ _ h

end Position

/-- What lies one step below the root. -/
def child? : Document α → Step → Option (Document α)
  | array items, .item i => items[i]?
  | object members, .member i key =>
    match members[i]? with
    | some (k, d) => if k = key then some d else none
    | none => none
  | _, _ => none

/-- What lies at a position. -/
def at? (d : Document α) : Position → Option (Document α)
  | [] => some d
  | s :: rest => (d.child? s).bind fun e => e.at? rest

/-! ## Branches -/

/-- The documents one step below the root, in order. -/
def branches : Document α → List (Step × Document α)
  | leaf _ => []
  | array items => items.zipIdx.map fun x => (.item x.2, x.1)
  | object members => members.zipIdx.map fun x => (.member x.2 x.1.1, x.1.2)

theorem mem_branches_array {items : List (Document α)} {b : Step × Document α} :
    b ∈ (array items).branches ↔ ∃ i, b.1 = .item i ∧ items[i]? = some b.2 := by
  rw [branches, List.mem_map]
  constructor
  · rintro ⟨⟨d, i⟩, h, rfl⟩
    exact ⟨i, rfl, List.mem_zipIdx_iff_getElem?.mp h⟩
  · rintro ⟨i, hstep, h⟩
    exact ⟨(b.2, i), List.mem_zipIdx_iff_getElem?.mpr h,
      Prod.ext hstep.symm rfl⟩

theorem mem_branches_object {members : List (String × Document α)}
    {b : Step × Document α} :
    b ∈ (object members).branches
      ↔ ∃ i key, b.1 = .member i key ∧ members[i]? = some (key, b.2) := by
  rw [branches, List.mem_map]
  constructor
  · rintro ⟨⟨⟨key, d⟩, i⟩, h, rfl⟩
    exact ⟨i, key, rfl, List.mem_zipIdx_iff_getElem?.mp h⟩
  · rintro ⟨i, key, hstep, h⟩
    exact ⟨((key, b.2), i), List.mem_zipIdx_iff_getElem?.mpr h,
      Prod.ext hstep.symm rfl⟩

/-- The step tells which branch is meant. -/
theorem child?_eq_some {d e : Document α} {s : Step} :
    d.child? s = some e ↔ (s, e) ∈ d.branches := by
  cases d with
  | leaf a => simp [child?, branches]
  | array items =>
    rw [mem_branches_array]
    cases s <;> simp [child?]
  | object members =>
    rw [mem_branches_object]
    cases s with
    | item i => simp [child?]
    | member i key =>
      rw [child?]
      rcases hmember : members[i]? with _ | ⟨k, d⟩
      · simp [hmember]
      · by_cases h : k = key <;> simp [h, hmember]

/-- The branches of a document stand in the order of their steps. -/
theorem pairwise_branches (d : Document α) :
    d.branches.Pairwise fun b c => b.1.index < c.1.index := by
  have hindex : ∀ {β : Type} (xs : List β) (i : Nat),
      (xs.zipIdx i).Pairwise fun x y => x.2 < y.2 := by
    intro β xs
    induction xs with
    | nil => exact fun _ => .nil
    | cons x rest ih =>
      intro i
      refine List.pairwise_cons.mpr ⟨fun y hy => ?_, ih (i + 1)⟩
      exact List.le_snd_of_mem_zipIdx hy
  cases d with
  | leaf a => exact .nil
  | array items => exact List.pairwise_map.mpr (hindex items 0)
  | object members => exact List.pairwise_map.mpr (hindex members 0)

theorem sizeOf_lt_of_mem_branches {d : Document α} {b : Step × Document α}
    (h : b ∈ d.branches) :
    sizeOf b.2 < sizeOf d := by
  cases d with
  | leaf a => cases h
  | array items =>
    obtain ⟨i, _, hitem⟩ := mem_branches_array.mp h
    have hlt := List.sizeOf_lt_of_mem (List.mem_of_getElem? hitem)
    rw [array.sizeOf_spec]
    omega
  | object members =>
    obtain ⟨i, key, _, hmember⟩ := mem_branches_object.mp h
    have hlt := List.sizeOf_lt_of_mem (List.mem_of_getElem? hmember)
    rw [Prod.mk.sizeOf_spec] at hlt
    rw [object.sizeOf_spec]
    omega

/-- What holds of a document when it holds of its branches holds of every
document. -/
@[elab_as_elim]
theorem branchInduction {motive : Document α → Prop}
    (step : ∀ d, (∀ b ∈ d.branches, motive b.2) → motive d) (d : Document α) :
    motive d :=
  step d fun b _ => branchInduction step b.2
termination_by sizeOf d
decreasing_by exact sizeOf_lt_of_mem_branches ‹_›

/-! ## Leaves by position -/

/-- A value at a position. -/
structure Spot (α : Type) where
  position : Position
  value : α
deriving DecidableEq, Repr

namespace Spot

/-- A spot of a branch as a spot of the document. -/
def under (s : Step) (spot : Spot α) : Spot α :=
  ⟨s :: spot.position, spot.value⟩

/-- What a walk from a root with the given path and mark makes of a spot. -/
def placed (path : Path) (inArray : Bool) (spot : Spot α) : Placed α :=
  ⟨path ++ spot.position.keys, spot.value, inArray || spot.position.passesArray⟩

/-- The first step adds its key to the path, or sets the mark. -/
theorem placed_under (path : Path) (inArray : Bool) (s : Step) (spot : Spot α) :
    (spot.under s).placed path inArray
      = spot.placed (path ++ s.key?.toList) (inArray || s.isItem) := by
  cases s with
  | item i =>
    simp [placed, under, Position.keys, Position.passesArray,
      List.filterMap_cons, Step.key?, Step.isItem]
  | member i key =>
    simp [placed, under, Position.keys, Position.passesArray,
      Step.key?, Step.isItem]

end Spot

/-- The spot at the root, when the document is a leaf. -/
def rootSpots : Document α → List (Spot α)
  | leaf a => [⟨[], a⟩]
  | array _ => []
  | object _ => []

mutual

/-- The leaves of a document with their positions, in document order. -/
def spots : Document α → List (Spot α)
  | leaf a => [⟨[], a⟩]
  | array items => spotsOfItems 0 items
  | object members => spotsOfMembers 0 members

/-- The spots of array items, of which the first has the given index. -/
def spotsOfItems (i : Nat) : List (Document α) → List (Spot α)
  | [] => []
  | d :: rest =>
    (spots d).map (Spot.under (.item i)) ++ spotsOfItems (i + 1) rest

/-- The spots of object members, of which the first has the given index. -/
def spotsOfMembers (i : Nat) : List (String × Document α) → List (Spot α)
  | [] => []
  | (key, d) :: rest =>
    (spots d).map (Spot.under (.member i key)) ++ spotsOfMembers (i + 1) rest

end

theorem spots_eq (d : Document α) :
    d.spots = d.rootSpots ++ d.branches.flatMap fun b =>
      b.2.spots.map (Spot.under b.1) := by
  cases d with
  | leaf a => rfl
  | array items =>
    rw [spots, rootSpots, branches, List.nil_append, List.flatMap_map]
    generalize 0 = i
    induction items generalizing i with
    | nil => rfl
    | cons d rest ih =>
      rw [spotsOfItems, ih, List.zipIdx_cons, List.flatMap_cons]
  | object members =>
    rw [spots, rootSpots, branches, List.nil_append, List.flatMap_map]
    generalize 0 = i
    induction members generalizing i with
    | nil => rfl
    | cons m rest ih =>
      rw [spotsOfMembers, ih, List.zipIdx_cons, List.flatMap_cons]

theorem leaves_eq (path : Path) (inArray : Bool) (d : Document α) :
    d.leaves path inArray = d.rootSpots.map (Spot.placed path inArray)
      ++ d.branches.flatMap fun b =>
          b.2.leaves (path ++ b.1.key?.toList) (inArray || b.1.isItem) := by
  cases d with
  | leaf a =>
    simp [leaves, rootSpots, branches, Spot.placed, Position.keys,
      Position.passesArray]
  | array items =>
    rw [leaves, leavesOfItems_eq_flatMap, rootSpots, branches, List.map_nil,
      List.nil_append, List.flatMap_map]
    conv_lhs => rw [← List.zipIdx_map_fst 0 items, List.flatMap_map]
    simp [Step.key?, Step.isItem]
  | object members =>
    rw [leaves, leavesOfMembers_eq_flatMap, rootSpots, branches, List.map_nil,
      List.nil_append, List.flatMap_map]
    conv_lhs => rw [← List.zipIdx_map_fst 0 members, List.flatMap_map]
    simp [Step.key?, Step.isItem]

/-- A walk meets the leaves position by position. -/
theorem leaves_eq_map_spots (path : Path) (inArray : Bool) (d : Document α) :
    d.leaves path inArray = d.spots.map (Spot.placed path inArray) := by
  induction d using branchInduction generalizing path inArray with
  | step d ih =>
    rw [leaves_eq, spots_eq, List.map_append, List.map_flatMap]
    congr 1
    refine List.flatMap_congr fun b hb => ?_
    rw [ih b hb, List.map_map]
    exact List.map_congr_left fun spot _ =>
      (Spot.placed_under path inArray b.1 spot).symm

theorem mem_rootSpots {d : Document α} {spot : Spot α} :
    spot ∈ d.rootSpots ↔ spot.position = [] ∧ d = .leaf spot.value := by
  obtain ⟨p, a⟩ := spot
  cases d with
  | leaf b => simp [rootSpots, eq_comm]
  | array items => simp [rootSpots]
  | object members => simp [rootSpots]

/-- The spots of a document are the leaves that its positions lead to. -/
theorem mem_spots {d : Document α} {p : Position} {a : α} :
    ⟨p, a⟩ ∈ d.spots ↔ d.at? p = some (.leaf a) := by
  induction p generalizing d with
  | nil =>
    rw [spots_eq, List.mem_append, mem_rootSpots, at?]
    simp [Spot.under]
  | cons s rest ih =>
    rw [spots_eq, List.mem_append, mem_rootSpots, at?, Option.bind_eq_some_iff,
      List.mem_flatMap]
    constructor
    · rintro (⟨hroot, _⟩ | ⟨⟨t, e⟩, hbranch, hspot⟩)
      · cases hroot
      · obtain ⟨⟨q, b⟩, hb, hunder⟩ := List.mem_map.mp hspot
        cases hunder
        exact ⟨e, child?_eq_some.mpr hbranch, ih.mp hb⟩
    · rintro ⟨e, hchild, hleaf⟩
      exact .inr ⟨(s, e), child?_eq_some.mp hchild,
        List.mem_map.mpr ⟨⟨rest, a⟩, ih.mpr hleaf, rfl⟩⟩

theorem pairwise_spots (d : Document α) :
    d.spots.Pairwise fun x y => x.position.Before y.position := by
  induction d using branchInduction with
  | step d ih =>
    rw [spots_eq, List.pairwise_append]
    refine ⟨?_, List.pairwise_flatMap.mpr ⟨fun b hb => ?_, ?_⟩,
      fun x hx y hy => ?_⟩
    · cases d with
      | leaf a => exact List.pairwise_singleton _ _
      | array items => exact .nil
      | object members => exact .nil
    -- within a branch both positions start with its step
    · exact List.pairwise_map.mpr ((ih b hb).imp fun h => .cons h)
    · refine (pairwise_branches d).imp fun hlt x hx y hy => ?_
      obtain ⟨x, _, rfl⟩ := List.mem_map.mp hx
      obtain ⟨y, _, rfl⟩ := List.mem_map.mp hy
      exact .rel hlt
    -- a leaf has no branches
    · obtain ⟨_, rfl⟩ := mem_rootSpots.mp hx
      cases hy

/-- The spots given are all the leaves of a document, each at its position, in
document order. -/
structure Enumerates (d : Document α) (spots : List (Spot α)) : Prop where
  mem_iff : ∀ p a, ⟨p, a⟩ ∈ spots ↔ d.at? p = some (.leaf a)
  ordered : spots.Pairwise fun x y => x.position.Before y.position

theorem enumerates_spots (d : Document α) : d.Enumerates d.spots :=
  ⟨fun _ _ => mem_spots, pairwise_spots d⟩

/-- The leaves of a document have one enumeration. -/
theorem Enumerates.eq_spots {d : Document α} {spots : List (Spot α)}
    (h : d.Enumerates spots) :
    spots = d.spots := by
  have hnodup : ∀ {xs : List (Spot α)}, d.Enumerates xs → xs.Nodup := by
    intro xs h
    refine h.ordered.imp fun {x y} hbefore heq => ?_
    subst heq
    exact hbefore.asymm hbefore
  have hperm : spots.Perm d.spots := by
    refine (List.perm_ext_iff_of_nodup (hnodup h)
      (hnodup (enumerates_spots d))).mpr fun ⟨p, a⟩ => ?_
    rw [h.mem_iff, mem_spots]
  -- two lists of the same spots in one order are the same
  exact hperm.eq_of_pairwise
    (fun x y _ _ hxy hyx => absurd hyx (Position.Before.asymm hxy)) h.ordered
    (pairwise_spots d)

end Document

/-! ## Entries -/

/-- An emission with every item changed. -/
def Emission.map {ε α β : Type} (f : α → β) (x : Emission ε α) : Emission ε β :=
  ⟨x.items.map f, x.broken⟩

theorem Emission.toExcept_eq_ok {ε α : Type} {x : Emission ε α}
    {items : List α} :
    x.toExcept = .ok items ↔ x = .ofList items := by
  obtain ⟨xs, _ | cause⟩ := x
  · simp [toExcept, ofList]
  · simp [toExcept, ofList]

theorem Emission.toExcept_eq_error {ε α : Type} {x : Emission ε α} {cause : ε} :
    x.toExcept = .error cause ↔ x.broken = some cause := by
  obtain ⟨xs, _ | c⟩ := x
  · simp [toExcept]
  · simp [toExcept]

/-- A value in a document as a value in a document around it, whose root is
further up by the given path and mark. -/
def Placed.under {α : Type} (path : Path) (inArray : Bool) (l : Placed α) :
    Placed α :=
  ⟨path ++ l.path, l.value, inArray || l.inArray⟩

/-- An entry in a document as an entry in a document around it. -/
def Entry.under (path : Path) (inArray : Bool) (e : Entry) : Entry :=
  ⟨path ++ e.path, e.value, inArray || e.inArray⟩

/-- The entry of the leaf at a position, when the root has the given path and
mark. -/
structure Entry.IsAt (path : Path) (inArray : Bool) (spot : Document.Spot Leaf)
    (e : Entry) : Prop where
  path_eq : e.path = path ++ spot.position.keys
  value_eq : spot.value.scalar? = .ok e.value
  inArray_iff : e.inArray = true
    ↔ inArray = true ∨ ∃ i, Document.Step.item i ∈ spot.position

theorem Placed.isAt_of_entry? {path : Path} {inArray : Bool}
    {spot : Document.Spot Leaf} {e : Entry}
    (h : Placed.entry? (spot.placed path inArray) = .ok e) :
    e.IsAt path inArray spot := by
  obtain ⟨value, hvalue, rfl⟩ := Placed.entry?_eq_ok.mp h
  refine ⟨rfl, hvalue, ?_⟩
  rw [Document.Spot.placed, Bool.or_eq_true, Document.Position.passesArray_iff]

namespace Document

theorem emitAll_map_under (path : Path) (inArray : Bool)
    (ls : List (Placed Leaf)) :
    emitAll (ls.map (Placed.under path inArray))
      = (emitAll ls).map (Entry.under path inArray) := by
  induction ls with
  | nil => rfl
  | cons l rest ih =>
    rw [List.map_cons, emitAll, ih, emitAll, leafEntries,
      leafEntries, Placed.under]
    -- the walk goes on behind a leaf that has a scalar, and breaks off at any
    -- other
    cases l.value.scalar? with
    | ok value => rfl
    | error x => rfl

/-- Where the walk starts is put in front of all paths, and into all marks. -/
theorem entries_under (path : Path) (inArray : Bool) (d : Document Leaf) :
    d.entries path inArray
      = (d.entries [] false).map (Entry.under path inArray) := by
  rw [entries_eq_emitAll, entries_eq_emitAll, ← emitAll_map_under,
    leaves_eq_map_spots, leaves_eq_map_spots [] false, List.map_map]
  rfl

/-- No leaf of a document has been rounded. -/
def IsExact (d : Document Leaf) : Prop :=
  ∀ p x, d.at? p ≠ some (.leaf (.rounded x))

theorem isExact_iff {d : Document Leaf} :
    d.IsExact ↔ ∀ spot ∈ d.spots, spot.value.scalar?.isOk = true := by
  constructor
  · rintro h ⟨p, a⟩ hspot
    cases a with
    | rounded x => exact absurd (mem_spots.mp hspot) (h p x)
    | _ => rfl
  · intro h p x hleaf
    cases h _ (mem_spots.mpr hleaf)

/-- How a walk ends is settled by its leaves, one after the other in document
order. -/
theorem toExcept_entries_eq_mapM_spots (path : Path) (inArray : Bool)
    (d : Document Leaf) :
    (d.entries path inArray).toExcept
      = d.spots.mapM fun spot => Placed.entry? (spot.placed path inArray) := by
  rw [toExcept_entries, leaves_eq_map_spots, List.mapM_map]
  rfl

/-- A walk over exact leaves is whole. -/
theorem exists_entries_of_exact {d : Document Leaf} (h : d.IsExact)
    (path : Path) (inArray : Bool) :
    ∃ es, d.entries path inArray = .ofList es
      ∧ List.Forall₂ (Entry.IsAt path inArray) d.spots es := by
  have hall : ∀ spot ∈ d.spots, ∃ e,
      Placed.entry? (spot.placed path inArray) = .ok e := fun spot hspot =>
    Placed.exists_entry?_iff.mpr fun x hx =>
      h spot.position x (mem_spots.mp (hx ▸ hspot))
  obtain ⟨es, hes⟩ := Outcome.exists_mapM_eq_ok hall
  refine ⟨es, Emission.toExcept_eq_ok.mp ?_, ?_⟩
  · rw [toExcept_entries_eq_mapM_spots, hes]
  · exact (Outcome.forall₂_of_mapM hes).imp fun _ _ => Placed.isAt_of_entry?

/-- The walk over a document with exact leaves yields one entry for each
position of a leaf, in document order, and nothing else. The path of an entry is
that of the root followed by the keys on the way, its value is the scalar of the
leaf, and its mark is set if that of the root is or an array lies on the way. So
a walk from any root is the walk from the plainest one, with the path in front
of all paths and the mark in all marks. -/
theorem entries_at_leaf_positions {d : Document Leaf} (hexact : d.IsExact)
    (path : Path) (inArray : Bool) :
    ∃ spots es, d.Enumerates spots
      ∧ (∀ others, d.Enumerates others → others = spots)
      ∧ d.entries path inArray = .ofList es
      ∧ List.Forall₂ (Entry.IsAt path inArray) spots es
      ∧ d.entries path inArray
          = (d.entries [] false).map (Entry.under path inArray) := by
  obtain ⟨es, hes, hpairs⟩ := exists_entries_of_exact hexact path inArray
  exact ⟨d.spots, es, enumerates_spots d, fun _ h => h.eq_spots, hes, hpairs,
    entries_under path inArray d⟩

/-- Arrays in an array, with empty containers among them, and one key at two
depths. -/
def nestedArrays : Document Leaf :=
  .object [
    ("a", .array [.array [.leaf (.integer 1), .object []], .array [],
      .object [("a", .leaf (.boolean true))]]),
    ("", .object [("a", .leaf .null)])]

/-- Its three leaves have their entries, below a path that leads to the root. -/
theorem entries_of_nestedArrays :
    nestedArrays.IsExact
      ∧ nestedArrays.Enumerates
          [⟨[.member 0 "a", .item 0, .item 0], .integer 1⟩,
           ⟨[.member 0 "a", .item 2, .member 0 "a"], .boolean true⟩,
           ⟨[.member 1 "", .member 0 "a"], .null⟩]
      ∧ nestedArrays.entries ["r"] false
          = .ofList [⟨["r", "a"], .number (.ofInt 1), true⟩,
          ⟨["r", "a", "a"], .boolean true, true⟩,
            ⟨["r", "", "a"], .null, false⟩] := by
  have hexact : nestedArrays.IsExact := isExact_iff.mpr (by decide)
  obtain ⟨spots, es, hspots, hunique, _, _, hunder⟩ :=
    entries_at_leaf_positions hexact ["r"] false
  obtain rfl := hunique nestedArrays.spots (enumerates_spots nestedArrays)
  refine ⟨hexact, hspots, ?_⟩
  rw [hunder]
  rfl

end Document

end LeafSurvey
