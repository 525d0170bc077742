import LeafSurvey.Corpus
import LeafSurvey.Proofs.Drafting

/-!
# The files of a corpus

A corpus that is opened has its files below its root, in the order of their
paths from there.

* `name_below`, `relativeText_below`: what is shown of such a file does not
  depend on the root;
* `open?_eq_ok`: a corpus is what a directory holds;
* `files_of_open?`: the files are there by sorted names, and none is the root
  itself;
* `names_eq_of_open?`: corpora with the same paths below their roots have them
  in the same order.
-/

namespace LeafSurvey

namespace FilePath

theorem below_injective (root : FilePath) : Function.Injective root.below := by
  intro parts parts' h
  exact List.append_cancel_left (congrArg FilePath.parts h)

theorem name_below (root : FilePath) {parts : List String} (h : parts ≠ []) :
    (root.below parts).name = parts.getLastD "" := by
  rw [name, below, List.getLastD_eq_getLast?,
    List.getLast?_append_of_ne_nil _ h, List.getLastD_eq_getLast?]

theorem relativeText_below (root : FilePath) (parts : List String) :
    root.relativeText (root.below parts) = text ⟨.working, parts⟩ := by
  rw [relativeText, below, List.drop_left]

end FilePath

namespace Store

/-- The names that lead from a location to an entry, where it is a file
below. -/
def namesBelow? (base : Location) (e : Location × Content) :
    Option (List String) :=
  match e.2 with
  | .file _ =>
    if base.isPrefixOf e.1 && base.length < e.1.length then
      some (e.1.drop base.length)
    else none
  | .directory => none

theorem namesBelow?_eq_some {base : Location} {e : Location × Content}
    {names : List String} :
    namesBelow? base e = some names
      ↔ names ≠ [] ∧ ∃ bytes, e = (base ++ names, .file bytes) := by
  obtain ⟨place, c⟩ := e
  cases c with
  | directory => simp [namesBelow?]
  | file bytes =>
    simp only [namesBelow?, Option.ite_none_right_eq_some, Bool.and_eq_true,
      decide_eq_true_eq, List.isPrefixOf_iff_prefix, Option.some.injEq]
    constructor
    · rintro ⟨⟨⟨rest, rfl⟩, hlonger⟩, hnames⟩
      rw [List.drop_left] at hnames
      subst hnames
      refine ⟨?_, bytes, rfl⟩
      rintro rfl
      simp at hlonger
    · rintro ⟨hne, _, he⟩
      cases he
      have hlonger : 0 < names.length := List.length_pos_iff.mpr hne
      simp [hlonger]

theorem filesBelow_eq (s : Store) (base : Location) :
    s.filesBelow base = s.entries.filterMap (namesBelow? base) :=
  rfl

theorem ne_nil_of_mem_filesBelow {s : Store} {base : Location}
    {names : List String} (h : names ∈ s.filesBelow base) : names ≠ [] := by
  rw [filesBelow_eq, List.mem_filterMap] at h
  obtain ⟨e, _, he⟩ := h
  exact (namesBelow?_eq_some.mp he).1

end Store

namespace Corpus

theorem open?_eq_ok {s : Store} {root : FilePath} {c : Corpus} :
    open? s root = .ok c
      ↔ ∃ base, s.resolve root = .ok base ∧ s.lookup base = some .directory
      ∧ c = ⟨root, s.documentsBelow root base⟩ := by
  unfold open?
  cases hroot : s.resolve root with
  | error problem => cases problem <;> simp
  | ok base =>
    simp only [Except.ok.injEq, exists_eq_left']
    cases hfound : s.lookup base with
    | none => simp
    | some content => cases content <;> simp [eq_comm]

/-- A corpus of documents that the store lists in order. -/
theorem open?_of_sorted {s : Store} {root : FilePath} {base : Location}
    {names : List (List String)} (hroot : s.resolve root = .ok base)
    (hbase : s.lookup base = some .directory)
    (hnames : (s.filesBelow base).filter
      (fun parts => FilePath.isDocumentName (parts.getLastD "")) = names)
    (hsorted : names.Pairwise fun a b =>
      "/".intercalate a ≤ "/".intercalate b) :
    open? s root = .ok ⟨root, names.map root.below⟩ := by
  refine open?_eq_ok.mpr ⟨base, hroot, hbase, ?_⟩
  have hkept :
      (names.mergeSort fun a b =>
        !decide ("/".intercalate b < "/".intercalate a)) = names := by
    refine List.mergeSort_of_pairwise (hsorted.imp fun h => ?_)
    rw [Bool.not_eq_true', decide_eq_false_iff_not]
    exact String.not_lt.mpr h
  rw [Store.documentsBelow, hnames, hkept]

/-- A corpus of one document. -/
theorem open?_of_singleton {s : Store} {root : FilePath} {base : Location}
    {names : List String} (hroot : s.resolve root = .ok base)
    (hbase : s.lookup base = some .directory)
    (hnames : (s.filesBelow base).filter
      (fun parts => FilePath.isDocumentName (parts.getLastD "")) = [names]) :
    open? s root = .ok ⟨root, [root.below names]⟩ :=
  open?_of_sorted hroot hbase hnames (List.pairwise_singleton _ _)

theorem files_of_open? {s : Store} {root : FilePath} {c : Corpus}
    (h : open? s root = .ok c) :
    ∃ names : List (List String), c.files = names.map c.root.below
      ∧ (∀ parts ∈ names, parts ≠ [])
      ∧ names.Pairwise fun a b => "/".intercalate a ≤ "/".intercalate b := by
  obtain ⟨base, _, _, rfl⟩ := open?_eq_ok.mp h
  refine ⟨_, rfl, fun parts hparts => ?_,
    pairwise_mergeSort_name "/".intercalate _⟩
  rw [List.mem_mergeSort] at hparts
  exact Store.ne_nil_of_mem_filesBelow (List.mem_of_mem_filter hparts)

/-- Two corpora whose files have the same paths below the roots, in whatever
order, have been opened with the files in one order. -/
theorem names_eq_of_open? {s₁ s₂ : Store} {root₁ root₂ : FilePath}
    {c₁ c₂ : Corpus} (h₁ : open? s₁ root₁ = .ok c₁)
    (h₂ : open? s₂ root₂ = .ok c₂) {names : List (List String)}
    (hfiles₁ : c₁.files.Perm (names.map c₁.root.below))
    (hfiles₂ : c₂.files.Perm (names.map c₂.root.below))
    (hinj : ∀ a ∈ names, ∀ b ∈ names,
      "/".intercalate a = "/".intercalate b → a = b) :
    ∃ sorted : List (List String), sorted.Perm names
      ∧ (∀ parts ∈ sorted, parts ≠ [])
      ∧ c₁.files = sorted.map c₁.root.below
      ∧ c₂.files = sorted.map c₂.root.below := by
  obtain ⟨names₁, hnames₁, hne, hsorted₁⟩ := files_of_open? h₁
  obtain ⟨names₂, hnames₂, _, hsorted₂⟩ := files_of_open? h₂
  rw [hnames₁, List.map_perm_map_iff (FilePath.below_injective _)] at hfiles₁
  rw [hnames₂, List.map_perm_map_iff (FilePath.below_injective _)] at hfiles₂
  -- both lists are sorted, and they hold the same names
  have heq : names₁ = names₂ :=
    eq_of_pairwise_name "/".intercalate (hfiles₁.trans hfiles₂.symm) hsorted₁
      hsorted₂ fun a ha b hb =>
        hinj a (hfiles₁.mem_iff.mp ha) b (hfiles₁.mem_iff.mp hb)
  subst heq
  exact ⟨names₁, hfiles₁, hne, hnames₁, hnames₂⟩

end Corpus

end LeafSurvey
