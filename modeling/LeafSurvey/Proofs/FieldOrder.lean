import LeafSurvey.Proofs.Drafting
import LeafSurvey.Proofs.Partition

/-!
# The order of fields

Fields are built from groups and sorted by name. What comes out can be said
without groups and without a sort: `Field.asMet` are the fields of the named
paths in the order in which the paths are met, and `StablySorted` says what an
order by name has to keep of that.

* `stablySorted_mergeSort`: sorting by name is such an order;
* `StablySorted.eq_of_stablySorted`: there is no other;
* `ofGroups_eq_asMet_sorted`: the fields of entries are the fields of their
  named paths in this order.
-/

namespace LeafSurvey

/-! ## Sorting by name -/

section Sorting

variable {α : Type} (name : α → String)

/-- One list holds what another holds, in the order of names; what has one name
keeps the order it had. -/
structure StablySorted (sorted xs : List α) : Prop where
  perm : sorted.Perm xs
  pairwise : sorted.Pairwise fun a b => name a ≤ name b
  filter_eq : ∀ n,
    (sorted.filter fun a => name a = n) = xs.filter fun a => name a = n

theorem stablySorted_mergeSort (xs : List α) :
    StablySorted name (xs.mergeSort fun a b => !decide (name b < name a))
      xs where
  perm := List.mergeSort_perm _ _
  pairwise := pairwise_mergeSort_name name xs
  filter_eq := filter_mergeSort_name name xs

variable {name}

/-- What begins a list in the order of names has the first of its names. -/
theorem name_le_of_pairwise_cons {x y : α} {xs : List α}
    (h : (x :: xs).Pairwise fun a b => name a ≤ name b) (hy : y ∈ x :: xs) :
    name x ≤ name y := by
  rcases List.mem_cons.mp hy with rfl | hy
  · exact String.le_refl _
  · exact (List.pairwise_cons.mp h).1 y hy

theorem mem_iff_of_filter_name_eq {xs ys : List α}
    (h : ∀ n, (xs.filter fun a => name a = n) = ys.filter fun a => name a = n)
    (a : α) :
    a ∈ xs ↔ a ∈ ys := by
  simpa using congrArg (a ∈ ·) (h (name a))

/-- Two lists in the order of names are equal when they agree on each name. -/
theorem eq_of_filter_name_eq {xs ys : List α}
    (hxs : xs.Pairwise fun a b => name a ≤ name b)
    (hys : ys.Pairwise fun a b => name a ≤ name b)
    (h : ∀ n, (xs.filter fun a => name a = n) = ys.filter fun a => name a = n) :
    xs = ys := by
  have hmem := mem_iff_of_filter_name_eq h
  induction xs generalizing ys with
  | nil =>
    cases ys with
    | nil => rfl
    | cons y ys =>
      exact absurd ((hmem y).mpr List.mem_cons_self) List.not_mem_nil
  | cons x xs ih =>
    cases ys with
    | nil => exact absurd ((hmem x).mp List.mem_cons_self) List.not_mem_nil
    | cons y ys =>
      -- both lists begin with the first of all names, and with what has it
      -- first
      have hname : name y = name x := String.le_antisymm
        (name_le_of_pairwise_cons hys ((hmem x).mp List.mem_cons_self))
        (name_le_of_pairwise_cons hxs ((hmem y).mpr List.mem_cons_self))
      have hfirst := h (name x)
      rw [List.filter_cons_of_pos (by simp),
        List.filter_cons_of_pos (by simp [hname]), List.cons.injEq] at hfirst
      obtain ⟨rfl, hfirst⟩ := hfirst
      have hrest : ∀ n,
          (xs.filter fun a => name a = n) = ys.filter fun a => name a = n := by
        intro n
        by_cases hn : name x = n
        · rw [← hn]
          exact hfirst
        · have hn' := h n
          rwa [List.filter_cons_of_neg (by simpa using hn),
            List.filter_cons_of_neg (by simpa using hn)] at hn'
      rw [ih hxs.of_cons hys.of_cons hrest (mem_iff_of_filter_name_eq hrest)]

theorem StablySorted.eq_of_stablySorted {sorted sorted' xs : List α}
    (h : StablySorted name sorted xs) (h' : StablySorted name sorted' xs) :
    sorted = sorted' :=
  eq_of_filter_name_eq h.pairwise h'.pairwise fun n =>
    (h.filter_eq n).trans (h'.filter_eq n).symm

theorem stablySorted_iff {sorted xs : List α} :
    StablySorted name sorted xs
      ↔ sorted = xs.mergeSort fun a b => !decide (name b < name a) := by
  constructor
  · intro h
    exact h.eq_of_stablySorted (stablySorted_mergeSort name xs)
  · rintro rfl
    exact stablySorted_mergeSort name xs

end Sorting

/-! ## Fields -/

theorem Entries.pairwise_firstPlace_namedPaths (es : List Entry) :
    (namedPaths es).Pairwise fun p q => firstPlace es p < firstPlace es q :=
  (pairwise_firstPlace_paths es).filter _

namespace Field

/-- The fields of the named paths among entries, in the order in which the paths
are first met. -/
def asMet (naming : Naming) (es : List Entry) : List Field :=
  (Entries.namedPaths es).map fun path => {
    name := path.joined naming.delimiter
    locale := naming.locale
    label := path.joined "."
    required := false
    type := Entries.fieldType (es.filter fun e => e.path.normalized = path) }

theorem ofGroups_eq_mergeSort_asMet (naming : Naming) (es : List Entry) :
    ofGroups naming (Groups.ofEntries es)
      = (asMet naming es).mergeSort inOrder := by
  rw [ofGroups, Groups.named_ofEntries, List.map_map]
  rfl

/-- The fields of the groups of entries are those of the named paths, each path
once and with the type of exactly the entries that have it, in the order of
their names; fields of one name stand in the order in which their paths are
first met. There is one list of fields like this. -/
theorem ofGroups_eq_asMet_sorted (naming : Naming) (es : List Entry) :
    (∀ fields, StablySorted Field.name fields (asMet naming es)
        ↔ fields = ofGroups naming (Groups.ofEntries es))
      ∧ (Entries.namedPaths es).Nodup
      ∧ (∀ path, path ∈ Entries.namedPaths es
          ↔ path ≠ [] ∧ ∃ e ∈ es, e.path.normalized = path)
      ∧ (Entries.namedPaths es).Pairwise
          fun p q => Entries.firstPlace es p < Entries.firstPlace es q := by
  refine ⟨fun fields => ?_, Entries.nodup_namedPaths es,
    fun path => Entries.mem_namedPaths,
    Entries.pairwise_firstPlace_namedPaths es⟩
  rw [ofGroups_eq_mergeSort_asMet]
  exact stablySorted_iff

/-- Of three paths two share a name, and the one met first comes first; the
third is a beginning of their name. -/
example :
    (ofGroups
      ⟨"___", .text "en"⟩ (Groups.ofEntries [⟨["a", "b"], .null, false⟩,
      ⟨["7"], .null, false⟩, ⟨["a___b"], .null, false⟩,
      ⟨["a", "3"], .null, false⟩])).map (fun d => (d.name, d.label))
      = [("a", "a"), ("a___b", "a.b"), ("a___b", "a___b")] := by
  cbv

end Field

end LeafSurvey
