import LeafSurvey.Report
import LeafSurvey.Table
import LeafSurvey.Proofs.Grouping

/-!
# Fields by path

Fields, report and schema table are made from groups. For the groups of a
sequence of entries, each of them is a list over the named paths of the entries,
in the order of the joined names:

* `ofGroups_ofEntries`: the fields are those of the paths, `Field.ofPath`;
* `schemaTableOf_rows`: so are the rows of the schema table;
* `Report.ofGroups_ofEntries`: the report counts paths;
* `sortedPaths_eq_of_perm`: where no two paths have one name, the order in which
  the paths were met is gone.
-/

namespace LeafSurvey

/-! ## Sorting by name -/

section Sorting

variable {α : Type} (name : α → String)

theorem nameOrder_trans (a b c : α) (hab : (!decide (name b < name a)) = true)
    (hbc : (!decide (name c < name b)) = true) :
    (!decide (name c < name a)) = true := by
  rw [Bool.not_eq_true', decide_eq_false_iff_not, String.not_lt] at hab hbc ⊢
  exact String.le_trans hab hbc

theorem nameOrder_total (a b : α) :
    (!decide (name b < name a) || !decide (name a < name b)) = true := by
  rw [Bool.or_eq_true, Bool.not_eq_true', Bool.not_eq_true',
    decide_eq_false_iff_not, decide_eq_false_iff_not,
    String.not_lt, String.not_lt]
  exact String.le_total _ _

theorem pairwise_mergeSort_name (xs : List α) :
    (xs.mergeSort fun a b => !decide (name b < name a)).Pairwise fun a b =>
      name a ≤ name b := by
  refine (List.pairwise_mergeSort (nameOrder_trans name) (nameOrder_total name)
    xs).imp fun h => ?_
  rwa [Bool.not_eq_true', decide_eq_false_iff_not, String.not_lt] at h

/-- Sorting keeps the order of what has one name. -/
theorem filter_mergeSort_name (xs : List α) (n : String) :
    ((xs.mergeSort fun a b => !decide (name b < name a)).filter fun a =>
      name a = n)
      = xs.filter fun a => name a = n := by
  have hname : ∀ a ∈ xs.filter fun a => name a = n, name a = n := fun a ha =>
    of_decide_eq_true (List.mem_filter.mp ha).2
  have hties : (xs.filter fun a => name a = n).Pairwise fun a b =>
      (!decide (name b < name a)) = true := by
    refine List.pairwise_of_forall_mem_list fun a ha b hb => ?_
    simp [hname a ha, hname b hb]
  -- what stands in order already is found in the sorted list, and that has no
  -- more of this name
  have hsub :=
    (List.sublist_mergeSort (nameOrder_trans name) (nameOrder_total name) hties
      List.filter_sublist).filter fun a => name a = n
  rw [List.filter_eq_self.mpr fun a ha => (List.mem_filter.mp ha).2] at hsub
  exact (hsub.eq_of_length
    ((List.mergeSort_perm xs _).filter _).length_eq.symm).symm

/-- There is one order by name of what has distinct names. -/
theorem eq_of_pairwise_name {xs ys : List α} (h : xs.Perm ys)
    (hxs : xs.Pairwise fun a b => name a ≤ name b)
    (hys : ys.Pairwise fun a b => name a ≤ name b)
    (hinj : ∀ a ∈ xs, ∀ b ∈ xs, name a = name b → a = b) : xs = ys := by
  refine List.Perm.eq_of_pairwise (fun a b ha hb hab hba => ?_) hxs hys h
  exact hinj a ha b (h.mem_iff.mpr hb) (String.le_antisymm hab hba)

/-- Sorting forgets the order of what has distinct names. -/
theorem mergeSort_name_eq_of_perm {xs ys : List α} (h : xs.Perm ys)
    (hinj : ∀ a ∈ xs, ∀ b ∈ xs, name a = name b → a = b) :
    (xs.mergeSort fun a b => !decide (name b < name a))
      = ys.mergeSort fun a b => !decide (name b < name a) := by
  refine eq_of_pairwise_name name ((List.mergeSort_perm _ _).trans
    (h.trans (List.mergeSort_perm _ _).symm)) (pairwise_mergeSort_name name xs)
    (pairwise_mergeSort_name name ys) fun a ha b hb => ?_
  exact hinj a (List.mem_mergeSort.mp ha) b (List.mem_mergeSort.mp hb)

/-- Images are sorted as what they are images of. -/
theorem mergeSort_name_map {β : Type} (f : β → α) (xs : List β) :
    (xs.map f).mergeSort (fun a b => !decide (name b < name a))
      = (xs.mergeSort fun a b => !decide (name (f b) < name (f a))).map f := by
  rw [List.map_mergeSort]
  intro a _ b _
  rfl

end Sorting

namespace Entries

/-- The named paths of entries in the order of their joined names. Paths of one
name keep the order in which they were met. -/
def sortedPaths (delimiter : String) (es : List Entry) : List Path :=
  (namedPaths es).mergeSort fun p q =>
    !decide (q.joined delimiter < p.joined delimiter)

theorem sortedPaths_perm (delimiter : String) (es : List Entry) :
    (sortedPaths delimiter es).Perm (namedPaths es) :=
  List.mergeSort_perm _ _

theorem sortedPaths_eq_of_perm {delimiter : String} {es es' : List Entry}
    (h : (namedPaths es).Perm (namedPaths es'))
    (hinj : ∀ p ∈ namedPaths es, ∀ q ∈ namedPaths es,
      p.joined delimiter = q.joined delimiter → p = q) :
    sortedPaths delimiter es = sortedPaths delimiter es' :=
  mergeSort_name_eq_of_perm (Path.joined delimiter) h hinj

end Entries

/-! ## Fields -/

namespace Field

/-- The field of a path among entries. -/
def ofPath (naming : Naming) (es : List Entry) (path : Path) : Field :=
  ofGroup naming ⟨path, Entries.sharing path es⟩

theorem ofGroups_ofEntries (naming : Naming) (es : List Entry) :
    ofGroups naming (Groups.ofEntries es)
      = (Entries.sortedPaths naming.delimiter es).map (ofPath naming es) := by
  rw [ofGroups, Groups.named_ofEntries, List.map_map]
  exact mergeSort_name_map Field.name (ofPath naming es) (Entries.namedPaths es)

theorem ofGroups_perm (naming : Naming) (es : List Entry) :
    (ofGroups naming (Groups.ofEntries es)).Perm
      ((Entries.namedPaths es).map (ofPath naming es)) := by
  rw [ofGroups_ofEntries]
  exact (Entries.sortedPaths_perm _ es).map _

end Field

/-! ## Counts and rows -/

/-- The report on the groups of entries counts their named paths. -/
theorem Report.ofGroups_ofEntries (files tokens entries : Nat)
    (es : List Entry) :
    Report.ofGroups files tokens entries (Groups.ofEntries es) = {
      files := files
      tokens := tokens
      entries := entries
      fields := (Entries.namedPaths es).length
      sets := (Entries.namedPaths es).countP fun path =>
        Entries.isPlural (Entries.sharing path es)
      mixed := (Entries.namedPaths es).countP fun path =>
        Entries.isMixed (Entries.sharing path es) } := by
  rw [Report.ofGroups, Groups.named_ofEntries, List.length_map, List.countP_map,
    List.countP_map]
  rfl

/-- The rows of the schema table are those of the named paths. -/
theorem Corpus.schemaTableOf_rows (delimiter : String) (es : List Entry) :
    (Corpus.schemaTableOf delimiter (Groups.ofEntries es)).rows
      = (Entries.sortedPaths delimiter es).map fun path =>
          Corpus.schemaRow delimiter ⟨path, Entries.sharing path es⟩ := by
  have hgroups : Corpus.schemaGroups delimiter (Groups.ofEntries es)
      = (Entries.sortedPaths delimiter es).map fun path =>
          ⟨path, Entries.sharing path es⟩ := by
    rw [Corpus.schemaGroups, Groups.named_ofEntries]
    exact mergeSort_name_map (fun g : Group => g.path.joined delimiter) _
      (Entries.namedPaths es)
  show (Corpus.schemaGroups delimiter (Groups.ofEntries es)).map _ = _
  rw [hgroups, List.map_map]
  rfl

end LeafSurvey
