import LeafSurvey.Group
import Mathlib.Data.List.Induction
import Mathlib.Data.List.Nodup
import Mathlib.Data.List.Perm.Basic

/-!
# Groups as subsequences

Groups are built entry by entry, each entry being added to the group of its
normalized path. What comes out can be said at once: `Entries.paths` are the
normalized paths in the order in which they first occur, and `Entries.sharing`
are the entries of one of them.

* `ofEntries_eq`: every path that occurs has one group, which holds the entries
  of that path in their order;
* `named_ofEntries`: the named groups are those of the paths that are not empty;
* `entryCount_ofEntries`: the groups hold every entry once.
-/

namespace LeafSurvey

/-! ## First occurrences -/

section FirstOccurrences

variable {α : Type} [BEq α] [LawfulBEq α]

/-- A value that comes last is new or has occurred before. -/
theorem eraseDups_concat (xs : List α) (x : α) [Decidable (x ∈ xs)] :
    (xs ++ [x]).eraseDups = if x ∈ xs then xs.eraseDups
      else xs.eraseDups ++ [x] := by
  have hsingle : [x].eraseDups = [x] := by rw [List.eraseDups_cons]; rfl
  rw [List.eraseDups_append]
  by_cases h : x ∈ xs
  · simp [h, List.removeAll]
  · simp [h, List.removeAll, hsingle]

theorem nodup_eraseDups (xs : List α) : xs.eraseDups.Nodup := by
  classical
  induction xs using List.reverseRecOn with
  | nil => exact List.nodup_nil
  | append_singleton xs x ih =>
    rw [eraseDups_concat]
    by_cases h : x ∈ xs
    · rwa [if_pos h]
    · rw [if_neg h, ← List.concat_eq_append]
      exact List.Nodup.concat (fun hx => h (List.mem_eraseDups.mp hx)) ih

theorem eraseDups_of_nodup {xs : List α} (h : xs.Nodup) :
    xs.eraseDups = xs := by
  classical
  induction xs using List.reverseRecOn with
  | nil => rfl
  | append_singleton xs x ih =>
    rw [← List.concat_eq_append, List.nodup_concat] at h
    rw [eraseDups_concat, if_neg h.1, ih h.2]

end FirstOccurrences

namespace Entries

/-- The normalized paths of entries, each once, in the order in which they first
occur. -/
def paths (es : List Entry) : List Path :=
  (es.map fun e => e.path.normalized).eraseDups

/-- The normalized paths that can name a field. -/
def namedPaths (es : List Entry) : List Path :=
  (paths es).filter fun path => !path.isEmpty

/-- The entries with a normalized path. -/
def sharing (path : Path) (es : List Entry) : List Entry :=
  es.filter fun e => e.path.normalized = path

theorem mem_paths {path : Path} {es : List Entry} :
    path ∈ paths es ↔ ∃ e ∈ es, e.path.normalized = path := by
  rw [paths, List.mem_eraseDups, List.mem_map]

theorem nodup_paths (es : List Entry) : (paths es).Nodup :=
  nodup_eraseDups _

theorem mem_namedPaths {path : Path} {es : List Entry} :
    path ∈ namedPaths es ↔ path ≠ [] ∧ ∃ e ∈ es, e.path.normalized = path := by
  rw [namedPaths, List.mem_filter, mem_paths, and_comm]
  simp

theorem nodup_namedPaths (es : List Entry) : (namedPaths es).Nodup :=
  (nodup_paths es).filter _

theorem paths_concat (es : List Entry) (e : Entry) :
    paths (es ++ [e])
      = if e.path.normalized ∈ paths es then paths es
          else paths es ++ [e.path.normalized] := by
  rw [paths, List.map_append, List.map_singleton, eraseDups_concat]
  simp only [paths, List.mem_eraseDups]

theorem sharing_concat (path : Path) (es : List Entry) (e : Entry) :
    sharing path (es ++ [e])
      = if e.path.normalized = path then sharing path es ++ [e]
          else sharing path es := by
  rw [sharing, List.filter_append, sharing]
  by_cases h : e.path.normalized = path <;> simp [h]

theorem sharing_eq_nil {path : Path} {es : List Entry} (h : path ∉ paths es) :
    sharing path es = [] := by
  rw [sharing, List.filter_eq_nil_iff]
  intro e he hpath
  exact h (mem_paths.mpr ⟨e, he, of_decide_eq_true hpath⟩)

end Entries

namespace Groups

/-- Adding an entry to groups with distinct paths lets the group of its path
grow, or opens one. -/
theorem add_map (path : Path) (e : Entry) (members : Path → List Entry)
    {paths : List Path} (hnd : paths.Nodup) :
    add path e (paths.map fun p => ⟨p, members p⟩)
      = if path ∈ paths then
          paths.map fun p =>
            ⟨p, if path = p then members p ++ [e] else members p⟩
        else (paths.map fun p => ⟨p, members p⟩) ++ [⟨path, [e]⟩] := by
  induction paths with
  | nil => rfl
  | cons p rest ih =>
    rw [List.nodup_cons] at hnd
    rw [List.map_cons, add]
    by_cases h : p = path
    · subst h
      -- the path does not occur again, so no later group grows
      have hrest :
          (rest.map fun q =>
            (⟨q, if p = q then members q ++ [e] else members q⟩ : Group))
          = rest.map fun q => ⟨q, members q⟩ := by
        refine List.map_congr_left fun q hq => ?_
        have hne : p ≠ q := fun he => hnd.1 (he ▸ hq)
        rw [if_neg hne]
      rw [if_pos rfl, if_pos List.mem_cons_self, List.map_cons,
        if_pos rfl, hrest]
    · rw [if_neg h, ih hnd.2]
      by_cases hmem : path ∈ rest
      · rw [if_pos hmem, if_pos (List.mem_cons_of_mem _ hmem), List.map_cons,
          if_neg (Ne.symm h)]
      · have hnot : path ∉ p :: rest := by
          rw [List.mem_cons, not_or]
          exact ⟨Ne.symm h, hmem⟩
        rw [if_neg hmem, if_neg hnot, List.cons_append]

/-- The entry that comes last is added last. -/
theorem ofEntries_concat (es : List Entry) (e : Entry) :
    ofEntries (es ++ [e]) = add e.path.normalized e (ofEntries es) := by
  rw [ofEntries, List.foldl_append]
  rfl

/-- The groups of entries: one for each normalized path, in the order of first
occurrence, with the entries of that path. -/
theorem ofEntries_eq (es : List Entry) :
    ofEntries es = (Entries.paths es).map fun path =>
      ⟨path, Entries.sharing path es⟩ := by
  induction es using List.reverseRecOn with
  | nil => rfl
  | append_singleton es e ih =>
    rw [ofEntries_concat, ih, add_map _ _ _ (Entries.nodup_paths es),
      Entries.paths_concat]
    by_cases h : e.path.normalized ∈ Entries.paths es
    · rw [if_pos h, if_pos h]
      refine List.map_congr_left fun path _ => ?_
      rw [Entries.sharing_concat]
    · rw [if_neg h, if_neg h, List.map_append, List.map_singleton]
      congr 1
      · refine List.map_congr_left fun path hpath => ?_
        have hne : e.path.normalized ≠ path := fun he => h (he ▸ hpath)
        rw [Entries.sharing_concat, if_neg hne]
      · rw [Entries.sharing_concat, if_pos rfl, Entries.sharing_eq_nil h,
          List.nil_append]

/-- The named groups are those of the paths that can name a field. -/
theorem named_ofEntries (es : List Entry) :
    (ofEntries es).named
      = (Entries.namedPaths es).map fun path =>
          ⟨path, Entries.sharing path es⟩ := by
  rw [named, ofEntries_eq, List.filter_map, Entries.namedPaths]
  rfl

theorem named_ofEntries_eq_nil {es : List Entry} :
    (ofEntries es).named = [] ↔ Entries.namedPaths es = [] := by
  rw [named_ofEntries, List.map_eq_nil_iff]

theorem entryCount_add (path : Path) (e : Entry) (groups : Groups) :
    (add path e groups).entryCount = groups.entryCount + 1 := by
  induction groups with
  | nil => rfl
  | cons g rest ih =>
    rw [add]
    by_cases h : g.path = path
    · rw [if_pos h, entryCount, entryCount, List.length_append,
        List.length_singleton]
      omega
    · rw [if_neg h, entryCount, entryCount, ih]
      omega

/-- Every entry is in one group. -/
theorem entryCount_ofEntries (es : List Entry) :
    (ofEntries es).entryCount = es.length := by
  have hgrow : ∀ (rest : List Entry) (groups : Groups),
      (rest.foldl (fun groups e => add e.path.normalized e groups)
        groups).entryCount
        = groups.entryCount + rest.length := by
    intro rest
    induction rest with
    | nil => intro groups; rfl
    | cons e rest ih =>
      intro groups
      rw [List.foldl_cons, ih, entryCount_add, List.length_cons]
      omega
  have htotal := hgrow es []
  rwa [entryCount, Nat.zero_add] at htotal

end Groups

end LeafSurvey
