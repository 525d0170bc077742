import LeafSurvey.Proofs.Grouping

/-!
# Groups as a partition

Grouping sorts entries into groups and loses nothing: `Groups.Partitions` lists
what groups of a sequence have to keep, with `Entries.firstPlace` for the order
in which paths are met.

* `members_ofEntries_perm`: what one added entry changes, and from it that the
  groups hold all entries;
* `Partitions.eq_ofEntries`: there is one partition of a sequence;
* `paths_ofEntries_append`, `membersAt_ofEntries_append`: a sequence that goes
  on lets the groups grow at their ends and opens new ones behind them;
* `groups_partition_entries`: all of this together, with the group that has no
  name.
-/

namespace LeafSurvey

/-! ## The order of first occurrences -/

section FirstOccurrences

variable {α : Type} [BEq α] [LawfulBEq α]

/-- Values stand in the order of the places where they first occur. -/
theorem pairwise_idxOf_eraseDups (xs : List α) :
    xs.eraseDups.Pairwise fun a b => xs.idxOf a < xs.idxOf b := by
  classical
  induction xs using List.reverseRecOn with
  | nil => exact .nil
  | append_singleton xs x ih =>
    -- a value that has occurred keeps its place
    have hkept : ∀ a ∈ xs, (xs ++ [x]).idxOf a = xs.idxOf a :=
      fun a ha => List.idxOf_append_of_mem ha
    have hbefore : xs.eraseDups.Pairwise fun a b => (xs ++ [x]).idxOf a
        < (xs ++ [x]).idxOf b := by
      refine ih.imp_of_mem fun ha hb hab => ?_
      rwa [hkept _ (List.mem_eraseDups.mp ha),
        hkept _ (List.mem_eraseDups.mp hb)]
    rw [eraseDups_concat]
    by_cases h : x ∈ xs
    · rwa [if_pos h]
    · rw [if_neg h]
      refine List.pairwise_append.mpr ⟨hbefore, List.pairwise_singleton _ _,
        fun a ha b hb => ?_⟩
      have hmem := List.mem_eraseDups.mp ha
      rw [List.mem_singleton.mp hb, hkept a hmem, List.idxOf_append_of_notMem h]
      exact Nat.lt_add_right _ (List.idxOf_lt_length_of_mem hmem)

/-- Values that are left out do not change the order of the others. -/
theorem eraseDups_filter (p : α → Bool) (xs : List α) :
    (xs.filter p).eraseDups = xs.eraseDups.filter p := by
  classical
  induction xs using List.reverseRecOn with
  | nil => rfl
  | append_singleton xs x ih =>
    rw [eraseDups_concat, List.filter_append]
    by_cases hp : p x = true
    · have hkept : [x].filter p = [x] :=
        List.filter_eq_self.mpr (by simpa using hp)
      rw [hkept, eraseDups_concat, ih]
      by_cases h : x ∈ xs
      · rw [if_pos h, if_pos (List.mem_filter.mpr ⟨h, hp⟩)]
      · rw [if_neg h, if_neg fun hx => h (List.mem_filter.mp hx).1,
          List.filter_append, hkept]
    · have hleft : [x].filter p = [] :=
        List.filter_eq_nil_iff.mpr (by simpa using hp)
      rw [hleft, List.append_nil, ih]
      by_cases h : x ∈ xs
      · rw [if_pos h]
      · rw [if_neg h, List.filter_append, hleft, List.append_nil]

end FirstOccurrences

namespace Entries

/-- The place of the first entry with a normalized path. -/
def firstPlace (es : List Entry) (path : Path) : Nat :=
  es.findIdx fun e => e.path.normalized = path

theorem firstPlace_eq (es : List Entry) (path : Path) :
    firstPlace es path = (es.map fun e => e.path.normalized).idxOf path := by
  rw [firstPlace, List.idxOf, List.findIdx_map]
  refine congrArg (List.findIdx · es) (funext fun e => ?_)
  exact (beq_eq_decide _ _).symm

theorem pairwise_firstPlace_paths (es : List Entry) :
    (paths es).Pairwise fun p q => firstPlace es p < firstPlace es q := by
  simp only [firstPlace_eq]
  exact pairwise_idxOf_eraseDups _

theorem paths_append (xs ys : List Entry) :
    paths (xs ++ ys) = paths xs ++ (paths ys).filter fun path => path
      ∉ paths xs := by
  rw [paths, List.map_append, List.eraseDups_append, List.removeAll,
    eraseDups_filter]
  congr 1
  refine List.filter_congr fun path _ => ?_
  rw [List.elem_eq_mem, decide_not, paths,
    decide_eq_decide.mpr List.mem_eraseDups]

theorem sharing_append (path : Path) (xs ys : List Entry) :
    sharing path (xs ++ ys) = sharing path xs ++ sharing path ys :=
  List.filter_append ..

theorem mem_sharing {path : Path} {es : List Entry} {e : Entry} :
    e ∈ sharing path es ↔ e ∈ es ∧ e.path.normalized = path := by
  rw [sharing, List.mem_filter, decide_eq_true_eq]

end Entries

/-! ## Partitions -/

namespace Groups

/-- The entries in the group of a path; none when the path has no group. -/
def membersAt (groups : Groups) (path : Path) : List Entry :=
  ((groups.find? fun g => g.path = path).map Group.members).getD []

/-- Groups that hold the entries of a sequence, each once, by normalized path
and in the order of the sequence. -/
structure Partitions (groups : Groups) (es : List Entry) : Prop where
  nodup_paths : (groups.map Group.path).Nodup
  mem_paths : ∀ path, path ∈ groups.map Group.path
    ↔ ∃ e ∈ es, e.path.normalized = path
  isNumeric_eq_false : ∀ g ∈ groups, ∀ segment ∈ g.path,
    Path.isNumeric segment = false
  /-- The groups stand in the order in which their paths were first met. -/
  pairwise_firstPlace :
    (groups.map Group.path).Pairwise fun p q => Entries.firstPlace es p
      < Entries.firstPlace es q
  members_ne_nil : ∀ g ∈ groups, g.members ≠ []
  members_eq : ∀ g ∈ groups,
    g.members = es.filter fun e => e.path.normalized = g.path
  members_perm : (groups.flatMap Group.members).Perm es

theorem paths_ofEntries (es : List Entry) :
    (ofEntries es).map Group.path = Entries.paths es := by
  rw [ofEntries_eq, List.map_map]
  exact List.map_id _

theorem mem_ofEntries {es : List Entry} {g : Group} :
    g ∈ ofEntries es
      ↔ g.path ∈ Entries.paths es ∧ g.members = Entries.sharing g.path es := by
  rw [ofEntries_eq, List.mem_map]
  constructor
  · rintro ⟨path, hpath, rfl⟩
    exact ⟨hpath, rfl⟩
  · rintro ⟨hpath, hmembers⟩
    exact ⟨g.path, hpath, by rw [← hmembers]⟩

/-- An added entry joins one group, and no other entry moves to another. -/
theorem members_add_perm (path : Path) (e : Entry) (groups : Groups) :
    ((add path e groups).flatMap Group.members).Perm
      (groups.flatMap Group.members ++ [e]) := by
  induction groups with
  | nil => exact .refl _
  | cons g rest ih =>
    rw [add]
    by_cases h : g.path = path
    · rw [if_pos h, List.flatMap_cons, List.flatMap_cons, List.append_assoc,
        List.append_assoc]
      exact List.perm_append_comm.append_left _
    · rw [if_neg h, List.flatMap_cons, List.flatMap_cons, List.append_assoc]
      exact ih.append_left _

/-- The groups hold all entries together, each as often as the sequence. -/
theorem members_ofEntries_perm (es : List Entry) :
    ((ofEntries es).flatMap Group.members).Perm es := by
  induction es using List.reverseRecOn with
  | nil => exact .refl _
  | append_singleton es e ih =>
    rw [ofEntries_concat]
    exact (members_add_perm _ e _).trans (ih.append_right _)

theorem partitions_ofEntries (es : List Entry) :
    (ofEntries es).Partitions es where
  nodup_paths := by
    rw [paths_ofEntries]
    exact Entries.nodup_paths es
  mem_paths path := by
    rw [paths_ofEntries]
    exact Entries.mem_paths
  isNumeric_eq_false g hg segment hsegment := by
    obtain ⟨e, _, hpath⟩ := Entries.mem_paths.mp (mem_ofEntries.mp hg).1
    rw [← hpath, Path.normalized, List.mem_filter] at hsegment
    simpa using hsegment.2
  pairwise_firstPlace := by
    rw [paths_ofEntries]
    exact Entries.pairwise_firstPlace_paths es
  members_ne_nil g hg := by
    obtain ⟨hpath, hmembers⟩ := mem_ofEntries.mp hg
    obtain ⟨e, he, hshares⟩ := Entries.mem_paths.mp hpath
    rw [hmembers]
    exact List.ne_nil_of_mem (Entries.mem_sharing.mpr ⟨he, hshares⟩)
  members_eq g hg := (mem_ofEntries.mp hg).2
  members_perm := members_ofEntries_perm es

/-- The groups of a sequence are its only partition. -/
theorem Partitions.eq_ofEntries {groups : Groups} {es : List Entry}
    (h : groups.Partitions es) :
    groups = ofEntries es := by
  have hperm : (groups.map Group.path).Perm (Entries.paths es) := by
    refine (List.perm_ext_iff_of_nodup h.nodup_paths
      (Entries.nodup_paths es)).mpr fun path => ?_
    rw [h.mem_paths, Entries.mem_paths]
  -- no two paths come first at each other
  have hpaths : groups.map Group.path = Entries.paths es :=
    hperm.eq_of_pairwise (fun p q _ _ hpq hqp => absurd hpq (Nat.lt_asymm hqp))
      h.pairwise_firstPlace (Entries.pairwise_firstPlace_paths es)
  calc groups
      = groups.map id := (List.map_id groups).symm
    _ = groups.map fun g => ⟨g.path, Entries.sharing g.path es⟩ := by
        refine List.map_congr_left fun g hg => ?_
        rw [Entries.sharing, ← h.members_eq g hg]
        rfl
    _ = (groups.map Group.path).map fun path =>
      ⟨path, Entries.sharing path es⟩ := by
        rw [List.map_map]
        rfl
    _ = ofEntries es := by rw [hpaths, ofEntries_eq]

/-! ## A sequence that goes on -/

theorem paths_ofEntries_append (xs ys : List Entry) :
    (ofEntries (xs ++ ys)).map Group.path
      = (ofEntries xs).map Group.path
        ++ ((ofEntries ys).map Group.path).filter fun path => path
            ∉ (ofEntries xs).map Group.path := by
  rw [paths_ofEntries, paths_ofEntries, paths_ofEntries]
  exact Entries.paths_append xs ys

theorem membersAt_ofEntries (es : List Entry) (path : Path) :
    (ofEntries es).membersAt path = Entries.sharing path es := by
  rw [membersAt]
  cases hfind : (ofEntries es).find? fun g => g.path = path with
  | none =>
    have hnot : path ∉ Entries.paths es := by
      rw [← paths_ofEntries, List.mem_map]
      rintro ⟨g, hg, hpath⟩
      exact List.find?_eq_none.mp hfind g hg (decide_eq_true hpath)
    exact (Entries.sharing_eq_nil hnot).symm
  | some g =>
    have hpath : g.path = path := by simpa using List.find?_some hfind
    rw [← hpath]
    exact (mem_ofEntries.mp (List.mem_of_find?_eq_some hfind)).2

theorem membersAt_ofEntries_append (xs ys : List Entry) (path : Path) :
    (ofEntries (xs ++ ys)).membersAt path
      = (ofEntries xs).membersAt path ++ (ofEntries ys).membersAt path := by
  rw [membersAt_ofEntries, membersAt_ofEntries, membersAt_ofEntries,
    Entries.sharing_append]

/-! ## The group without a name -/

theorem mem_named {groups : Groups} {g : Group} :
    g ∈ groups.named ↔ g ∈ groups ∧ g.path ≠ [] := by
  rw [named, List.mem_filter]
  simp

/-- Of groups with distinct paths, one at most has no name; the others are left
as they stand. -/
theorem named_eq_eraseP {groups : Groups} (h : (groups.map Group.path).Nodup) :
    groups.named = groups.eraseP fun g => g.path = [] := by
  induction groups with
  | nil => rfl
  | cons g rest ih =>
    rw [List.map_cons, List.nodup_cons] at h
    by_cases hpath : g.path = []
    · have hrest : Groups.named rest = rest := by
        refine List.filter_eq_self.mpr fun other hother => ?_
        have hne : other.path ≠ [] :=
          fun he => h.1 (hpath ▸ he ▸ List.mem_map_of_mem hother)
        simpa using hne
      rw [List.eraseP_cons_of_pos (by simpa using hpath), named,
        List.filter_cons_of_neg (by simp [hpath])]
      exact hrest
    · rw [List.eraseP_cons_of_neg (by simpa using hpath), named,
        List.filter_cons_of_pos (by simpa using hpath)]
      exact congrArg _ (ih h.2)

/-- Grouping is the partition of a sequence that keeps its order. Groups of a
sequence that goes on keep their places: what follows joins them at their ends,
and new groups come behind. Leaving out what has no name takes away the group of
the empty path and nothing else, of any groups with distinct paths. -/
theorem groups_partition_entries (es : List Entry) :
    (ofEntries es).Partitions es
      ∧ (∀ groups : Groups, groups.Partitions es → groups = ofEntries es)
      ∧ (∀ more, (ofEntries (es ++ more)).map Group.path
            = (ofEntries es).map Group.path
              ++ ((ofEntries more).map Group.path).filter fun path =>
                path ∉ (ofEntries es).map Group.path)
      ∧ (∀ more path, (ofEntries (es ++ more)).membersAt path
            = (ofEntries es).membersAt path ++ (ofEntries more).membersAt path)
      ∧ ∀ groups : Groups, (groups.map Group.path).Nodup →
          groups.named = groups.eraseP (fun g => g.path = [])
            ∧ ∀ g, g ∈ groups.named ↔ g ∈ groups ∧ g.path ≠ [] := by
  refine ⟨partitions_ofEntries es, fun groups h => h.eq_ofEntries,
    paths_ofEntries_append es, membersAt_ofEntries_append es,
    fun groups h => ?_⟩
  exact ⟨named_eq_eraseP h, fun g => mem_named⟩

end Groups

/-- Two siblings with an entry between them that has no name. -/
def Entries.siblings : List Entry :=
  [⟨["a", "0"], .text "x", false⟩, ⟨["7"], .null, true⟩,
    ⟨["1", "a"], .boolean true, false⟩]

/-- The siblings share a group, and an entry that follows joins it; the group
without a name is left out. -/
theorem Groups.partition_of_siblings :
    (∀ g ∈ ofEntries Entries.siblings, g.members ≠ [])
      ∧ (ofEntries (Entries.siblings ++ [⟨["b"], .null, false⟩,
          ⟨["a"], .null, false⟩])).map Group.path
          = [["a"], [], ["b"]]
      ∧ (ofEntries (Entries.siblings ++ [⟨["b"], .null, false⟩,
          ⟨["a"], .null, false⟩])).membersAt ["a"]
          = [⟨["a", "0"], .text "x", false⟩, ⟨["1", "a"], .boolean true, false⟩,
              ⟨["a"], .null, false⟩]
      ∧ (ofEntries Entries.siblings).named.map Group.path = [["a"]] := by
  obtain ⟨hpartition, _, hpaths, hmembers, hnamed⟩ :=
    groups_partition_entries Entries.siblings
  refine ⟨hpartition.members_ne_nil, ?_, ?_, ?_⟩
  · rw [hpaths]
    decide
  · rw [hmembers]
    decide
  · rw [(hnamed _ hpartition.nodup_paths).1]
    decide

end LeafSurvey
