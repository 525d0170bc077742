import LeafSurvey.Proofs.Kinds
import LeafSurvey.Proofs.Positions
import LeafSurvey.Proofs.RepeatedKeys

/-!
# Objects read back from paths

The paths of a walk say nothing of arrays and of empty containers. Where a
document has none of them and repeats no key within an object, its leaves and
their paths say all there is to know about it:

* `mem_addresses_object`: below an object, what comes next in a path is the key
  of the member;
* `append_inj_of_separated`: so the leaves of the first member are told apart
  from those of the others;
* `IsNested.eq_of_addresses_eq`: member by member, equal addresses come from
  equal documents;
* `entries_determine_document`: documents whose entries have the same paths and
  values are the same, up to leaves that stand for the same scalar.
-/

namespace LeafSurvey.Document

variable {α β : Type}

/-- Objects with members in objects with members, down to the leaves. -/
inductive IsNested : Document α → Prop
  | leaf (a : α) : IsNested (leaf a)
  | object {members : List (String × Document α)} (hne : members ≠ [])
      (hmembers : ∀ m ∈ members, IsNested m.2) : IsNested (object members)

@[simp] theorem isNested_leaf (a : α) : (leaf a).IsNested :=
  .leaf a

@[simp] theorem isNested_object {members : List (String × Document α)} :
    (object members).IsNested ↔ members ≠ [] ∧ ∀ m ∈ members, m.2.IsNested := by
  constructor
  · intro h
    cases h with
    | object hne hmembers => exact ⟨hne, hmembers⟩
  · rintro ⟨hne, hmembers⟩
    exact .object hne hmembers

theorem IsNested.map {d : Document α} (h : d.IsNested) (f : α → β) :
    (d.map f).IsNested := by
  induction h with
  | leaf a => exact .leaf (f a)
  | object hne hmembers ih =>
    rename_i members
    rw [Document.map, mapMembers_eq_map]
    refine .object (fun hnil => hne (List.map_eq_nil_iff.mp hnil))
      fun m hm => ?_
    obtain ⟨n, hn, rfl⟩ := List.mem_map.mp hm
    exact ih n hn

/-! ## Addresses -/

/-- The leaves of a document with their paths, in document order. -/
def addresses (path : Path) (d : Document α) : List (Path × α) :=
  (d.leaves path false).map fun l => (l.path, l.value)

/-- The mark of the root is in no address. -/
theorem addresses_eq (path : Path) (inArray : Bool) (d : Document α) :
    d.addresses path = (d.leaves path inArray).map fun l =>
      (l.path, l.value) := by
  rw [addresses, leaves_eq_map_spots, leaves_eq_map_spots path inArray,
    List.map_map, List.map_map]
  rfl

theorem addresses_object (path : Path) (members : List (String × Document α)) :
    (object members).addresses path = members.flatMap fun m =>
      m.2.addresses (path ++ [m.1]) := by
  rw [addresses, leaves, leavesOfMembers_eq_flatMap, List.map_flatMap]
  rfl

theorem addresses_map (path : Path) (f : α → β) (d : Document α) :
    (d.map f).addresses path = (d.addresses path).map (Prod.map id f) := by
  rw [addresses, addresses, leaves_map, List.map_map, List.map_map]
  rfl

/-- Every leaf lies below the root. -/
theorem isPrefix_of_mem_addresses {path : Path} {d : Document α} {x : Path × α}
    (h : x ∈ d.addresses path) : path <+: x.1 := by
  rw [addresses, leaves_eq_map_spots, List.map_map] at h
  obtain ⟨spot, _, rfl⟩ := List.mem_map.mp h
  exact List.prefix_append path spot.position.keys

/-- Every leaf of an object lies below one of its members. -/
theorem mem_addresses_object {path : Path}
    {members : List (String × Document α)} {x : Path × α}
    (h : x ∈ (object members).addresses path) :
    ∃ m ∈ members, path ++ [m.1] <+: x.1 := by
  rw [addresses_object] at h
  obtain ⟨m, hm, hx⟩ := List.mem_flatMap.mp h
  exact ⟨m, hm, isPrefix_of_mem_addresses hx⟩

theorem IsNested.addresses_ne_nil {d : Document α} (h : d.IsNested)
    (path : Path) :
    d.addresses path ≠ [] := by
  induction h generalizing path with
  | leaf a => exact List.cons_ne_nil _ _
  | object hne hmembers ih =>
    rename_i members
    obtain ⟨m, hm⟩ := List.exists_mem_of_ne_nil members hne
    rw [addresses_object]
    exact fun hnil => ih m hm _ (List.flatMap_eq_nil_iff.mp hnil m hm)

/-! ## From addresses to documents -/

/-- Below one root a path goes on with one key. -/
theorem key_eq_of_isPrefix {path q : Path} {key key' : String}
    (h : path ++ [key] <+: q) (h' : path ++ [key'] <+: q) : key = key' := by
  have hlength : (path ++ [key]).length = (path ++ [key']).length := by
    rw [List.length_append, List.length_append, List.length_singleton,
      List.length_singleton]
  have heq :=
    (List.prefix_of_prefix_length_le h h' hlength.le).eq_of_length hlength
  exact List.singleton_injective (List.append_cancel_left heq)

/-- A leaf at the root is not a leaf of an object. -/
theorem addresses_leaf_ne_object (path : Path) (a : α)
    (members : List (String × Document α)) :
    (Document.leaf a).addresses path ≠ (object members).addresses path := by
  intro h
  have hmem : (path, a) ∈ (object members).addresses path :=
    h ▸ List.mem_singleton_self (path, a)
  obtain ⟨m, _, hprefix⟩ := mem_addresses_object hmem
  have hlength : (path ++ [m.1]).length ≤ path.length := hprefix.length_le
  rw [List.length_append, List.length_singleton] at hlength
  omega

/-- Two sequences that go on with `ys` and `ys'` are the same where a property
tells what they start with from what follows. -/
theorem append_inj_of_separated {p : β → Prop} {xs xs' ys ys' : List β}
    (h : xs ++ ys = xs' ++ ys') (hxs : ∀ x ∈ xs, p x) (hxs' : ∀ x ∈ xs', p x)
    (hys : ∀ y ∈ ys, ¬p y) (hys' : ∀ y ∈ ys', ¬p y) :
    xs = xs' ∧ ys = ys' := by
  classical
  have hstart : ∀ {xs ys : List β}, (∀ x ∈ xs, p x) → (∀ y ∈ ys, ¬p y) →
      (xs ++ ys).filter (fun x => decide (p x)) = xs := by
    intro xs ys hxs hys
    rw [List.filter_append,
      List.filter_eq_self.mpr fun x hx => decide_eq_true (hxs x hx),
      List.filter_eq_nil_iff.mpr fun y hy hp => hys y hy (of_decide_eq_true hp),
      List.append_nil]
  have heq : xs = xs' := by rw [← hstart hxs hys, h, hstart hxs' hys']
  subst heq
  exact ⟨rfl, List.append_cancel_left h⟩

/-- The members of two objects are the same when they have the same addresses,
if that holds of the values of the first. -/
theorem members_eq_of_addresses_eq {path : Path}
    {ms ns : List (String × Document α)} (hms : ∀ m ∈ ms, m.2.IsNested)
    (hns : ∀ n ∈ ns, n.2.IsNested) (hkeys : (ms.map Prod.fst).Nodup)
    (hkeys' : (ns.map Prod.fst).Nodup)
    (hvalues : ∀ m ∈ ms, ∀ n ∈ ns, ∀ q,
      m.2.addresses q = n.2.addresses q → m.2 = n.2)
    (h : (object ms).addresses path = (object ns).addresses path) :
    ms = ns := by
  -- no leaf of a later member has the key of the first on its path
  have hothers :
      ∀ {m : String × Document α} {rest : List (String × Document α)},
      ((m :: rest).map Prod.fst).Nodup → ∀ x ∈ (object rest).addresses path,
        ¬path ++ [m.1] <+: x.1 := by
    intro m rest hnodup x hx hprefix
    obtain ⟨n, hn, hprefix'⟩ := mem_addresses_object hx
    rw [List.map_cons, List.nodup_cons] at hnodup
    exact hnodup.1 (List.mem_map.mpr ⟨n, hn,
      key_eq_of_isPrefix hprefix' hprefix⟩)
  induction ms generalizing ns with
  | nil =>
    cases ns with
    | nil => rfl
    | cons n ns =>
      rw [addresses_object, addresses_object, List.flatMap_nil,
        List.flatMap_cons] at h
      have hnil := (List.append_eq_nil_iff.mp h.symm).1
      exact absurd hnil ((hns n List.mem_cons_self).addresses_ne_nil _)
  | cons m ms ih =>
    cases ns with
    | nil =>
      rw [addresses_object, addresses_object, List.flatMap_nil,
        List.flatMap_cons] at h
      have hnil := (List.append_eq_nil_iff.mp h).1
      exact absurd hnil ((hms m List.mem_cons_self).addresses_ne_nil _)
    | cons n ns =>
      obtain ⟨hm, hms⟩ := List.forall_mem_cons.mp hms
      obtain ⟨hn, hns⟩ := List.forall_mem_cons.mp hns
      rw [addresses_object, addresses_object, List.flatMap_cons,
        List.flatMap_cons, ← addresses_object, ← addresses_object] at h
      -- the first leaf of all belongs to both first members
      have hkey : m.1 = n.1 := by
        obtain ⟨x, xs, hx⟩ :=
          List.exists_cons_of_ne_nil (hm.addresses_ne_nil (path ++ [m.1]))
        obtain ⟨y, ys, hy⟩ :=
          List.exists_cons_of_ne_nil (hn.addresses_ne_nil (path ++ [n.1]))
        have hxy : x = y := by
          rw [hx, hy, List.cons_append, List.cons_append] at h
          exact (List.cons.inj h).1
        have hmx := isPrefix_of_mem_addresses (hx ▸ List.mem_cons_self : x ∈ _)
        have hny := isPrefix_of_mem_addresses (hy ▸ List.mem_cons_self : y ∈ _)
        exact key_eq_of_isPrefix hmx (hxy ▸ hny)
      rw [← hkey] at h
      obtain ⟨hfirst, hrest⟩ :=
        append_inj_of_separated (p := fun x => path ++ [m.1] <+: x.1) h
          (fun x => isPrefix_of_mem_addresses)
          (fun x => isPrefix_of_mem_addresses) (hothers hkeys)
          (hkey ▸ hothers hkeys')
      have hvalue := hvalues m List.mem_cons_self n List.mem_cons_self _ hfirst
      have hmembers :=
        ih hms hns (List.nodup_cons.mp hkeys).2 (List.nodup_cons.mp hkeys').2
          (fun m hm n hn => hvalues m (List.mem_cons_of_mem _ hm) n
          (List.mem_cons_of_mem _ hn)) hrest
      rw [Prod.ext hkey hvalue, hmembers]

/-- A nested document without repeated keys is known from its addresses. -/
theorem IsNested.eq_of_addresses_eq {d e : Document α} (hd : d.IsNested)
    (he : e.IsNested) (hkeys : d.hasDistinctKeys = true)
    (hkeys' : e.hasDistinctKeys = true) {path : Path}
    (h : d.addresses path = e.addresses path) : d = e := by
  induction hd generalizing e path with
  | leaf a =>
    cases he with
    | leaf b =>
      have hab : (path, a) = (path, b) := (List.cons.inj h).1
      rw [(Prod.mk.inj hab).2]
    | object hne hmembers => exact absurd h (addresses_leaf_ne_object path a _)
  | object hne hmembers ih =>
    cases he with
    | leaf b => exact absurd h.symm (addresses_leaf_ne_object path b _)
    | object hne' hmembers' =>
      rw [hasDistinctKeys, Bool.and_eq_true, decide_eq_true_eq,
        membersHaveDistinctKeys_eq_all, List.all_eq_true] at hkeys hkeys'
      have hvalues := fun m hm n hn q
          (hq : m.2.addresses q = n.2.addresses q) =>
        ih m hm (hmembers' n hn) (hkeys.2 m hm) (hkeys'.2 n hn) hq
      rw [members_eq_of_addresses_eq hmembers hmembers' hkeys.1
        hkeys'.1 hvalues h]

/-! ## From entries to documents -/

/-- The paths of the entries with what is seen of their values are the addresses
of what is seen of the scalars. -/
theorem addresses_scalars_eq {d : Document Leaf} (h : d.IsExact)
    (view : Scalar → β) (path : Path) (inArray : Bool) :
    (d.map fun a => a.scalar?.map view).addresses path
      = ((d.entries path inArray).items.map fun e => (e.path, view e.value)).map
          (Prod.map id Except.ok) := by
  obtain ⟨es, hes, -⟩ := exists_entries_of_exact h path inArray
  have hmapM : (d.leaves path inArray).mapM Placed.entry? = .ok es := by
    rw [← toExcept_entries, hes]
    rfl
  rw [hes, Emission.ofList, addresses_map, addresses_eq path inArray,
    List.map_map, List.map_map]
  refine (Outcome.map_of_mapM hmapM fun l e he => ?_).symm
  obtain ⟨value, hvalue, rfl⟩ := Placed.entry?_eq_ok.mp he
  rw [Function.comp_apply, Function.comp_apply, Prod.map_apply,
    Prod.map_apply, hvalue]
  rfl

/-- Two nested documents without repeated keys have entries with the same paths
and values, in the same order, exactly if they are the same document up to the
leaves, and their leaves stand for the same scalars. What is compared of scalars
is what `view` shows of them: all, or numbers by their values alone. -/
theorem entries_determine_document (view : Scalar → β) {d e : Document Leaf}
    (hd : d.IsNested) (he : e.IsNested) (hkeys : d.hasDistinctKeys = true)
    (hkeys' : e.hasDistinctKeys = true) (hexact : d.IsExact)
    (hexact' : e.IsExact) (path : Path) (inArray inArray' : Bool) :
    (d.entries path inArray).items.map (fun x => (x.path, view x.value))
        = (e.entries path inArray').items.map (fun x => (x.path, view x.value))
      ↔ d.map (fun a => a.scalar?.map view)
          = e.map (fun a => a.scalar?.map view) := by
  have hok : Function.Injective (Prod.map id Except.ok : Path × β →
      Path × Except Binary β) :=
      Function.injective_id.prodMap fun _ _ => Except.ok.inj
  rw [← (List.map_injective_iff.mpr hok).eq_iff,
    ← addresses_scalars_eq hexact view path inArray,
    ← addresses_scalars_eq hexact' view path inArray']
  constructor
  · refine (hd.map _).eq_of_addresses_eq (he.map _) ?_ ?_
    · rw [hasDistinctKeys_map, hkeys]
    · rw [hasDistinctKeys_map, hkeys']
  · exact congrArg (addresses path)

/-- One key at three depths, the empty key at two. -/
def nestedObjects (one : Leaf) : Document Leaf :=
  .object [
    ("", .object [("a", .object [("", .leaf one), ("a", .leaf .null)])]),
    ("a", .leaf (.text "a"))]

/-- The number in it as an integer and as a decimal: two documents, of which the
entries say that their leaves stand for the same scalars. -/
theorem scalars_of_nestedObjects :
    (∀ one, (nestedObjects one).IsNested
      ∧ (nestedObjects one).hasDistinctKeys = true)
      ∧ nestedObjects (.integer 1) ≠ nestedObjects (.decimal (.ofInt 1))
      ∧ (nestedObjects (.integer 1)).map (fun a => a.scalar?.map id)
        = (nestedObjects (.decimal (.ofInt 1))).map fun a =>
            a.scalar?.map id := by
  have hnested : ∀ one, (nestedObjects one).IsNested := fun one => by
    simp [nestedObjects]
  have hkeys : ∀ one, (nestedObjects one).hasDistinctKeys = true :=
    fun one => rfl
  refine ⟨fun one => ⟨hnested one, hkeys one⟩, by simp [nestedObjects], ?_⟩
  have hexact : (nestedObjects (.integer 1)).IsExact :=
    isExact_iff.mpr (by decide)
  have hexact' : (nestedObjects (.decimal (.ofInt 1))).IsExact :=
    isExact_iff.mpr (by decide)
  exact (entries_determine_document id (hnested _) (hnested _) (hkeys _)
    (hkeys _) hexact hexact' [] false true).mp rfl

end LeafSurvey.Document
