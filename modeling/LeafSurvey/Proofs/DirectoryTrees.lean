import LeafSurvey.Proofs.Additions
import LeafSurvey.Proofs.Overriding

/-!
# The documents of a directory tree

A store lists what a directory tree holds, in whatever order the tree was
enumerated. The documents below a directory are the files, at any depth, whose
names have the suffix of documents.

* `isDocumentName_iff`: which names have the suffix, letter by letter;
* `eq_of_intercalate`: paths of names without slashes are told apart by their
  written form;
* `IsFileSystem.ensureDirectories`, `IsFileSystem.place`, `IsFileSystem.remove`,
  `IsReached.isFileSystem`: no change of files makes a name with a slash or
  lists a place twice, nor does any number of changes;
* `discovery_is_canonical`: a corpus has the documents below its root, each
  once, in strict order of their written paths from there, however the tree is
  enumerated.
-/

namespace LeafSurvey

namespace FilePath

/-! ## Names of documents -/

/-- Only a letter and its capital have the letter for their lower case. -/
theorem toLower_eq_iff {c l : Char} (hl : l.isLower = true) :
    c.toLower = l ↔ c = l ∨ c = l.toUpper := by
  unfold Char.isLower at hl
  simp only [Bool.and_eq_true, decide_eq_true_eq, ge_iff_le,
    UInt32.le_iff_toNat_le] at hl
  unfold Char.toLower Char.toUpper
  simp only [ge_iff_le, UInt32.le_iff_toNat_le]
  split
  · rename_i hc
    simp only [Char.ext_iff, ← UInt32.toNat_inj, UInt32.toNat_add,
      UInt32.toNat_sub]
    simp at hc hl ⊢
    omega
  · rename_i hc
    simp only [Char.ext_iff, ← UInt32.toNat_inj, UInt32.toNat_add,
      UInt32.toNat_sub]
    simp at hc hl ⊢
    omega

theorem suffix_of_append {name : String} {stem ext : List Char}
    (hname : name.toList = stem ++ '.' :: ext) (hstem : stem ≠ [])
    (hext : ext ≠ []) (hdot : '.' ∉ ext) : suffix name = '.' :: ext := by
  have htail : (name.toList.reverse).takeWhile (· != '.') = ext.reverse := by
    rw [hname, List.reverse_append, List.reverse_cons, List.append_assoc,
      List.takeWhile_append_of_pos fun c hc => ?_]
    · simp
    · simp only [bne_iff_ne, ne_eq]
      rintro rfl
      exact hdot (List.mem_reverse.mp hc)
  have hfront : (name.toList.reverse).drop (ext.reverse.length + 1)
      = stem.reverse := by
    rw [hname, List.reverse_append, List.reverse_cons, List.append_assoc,
      ← List.drop_drop, List.drop_left]
    rfl
  simp only [suffix, htail, hfront]
  simp [hstem, hext]

theorem exists_stem_of_suffix {name : String} (h : suffix name ≠ []) :
    ∃ stem ext, stem ≠ [] ∧ suffix name = '.' :: ext
      ∧ name.toList = stem ++ '.' :: ext := by
  have hsplit :=
    List.takeWhile_append_dropWhile (p := (· != '.')) (l := name.toList.reverse)
  have hdot := List.head?_dropWhile_not (· != '.') name.toList.reverse
  simp only [suffix] at h ⊢
  -- the letters behind the last dot, and from there on all that precedes them,
  -- backwards
  generalize name.toList.reverse.takeWhile (· != '.') = tail at h hsplit ⊢
  generalize name.toList.reverse.dropWhile (· != '.') = rest at hdot hsplit
  have hname : name.toList = rest.reverse ++ tail.reverse := by
    rw [← List.reverse_append, hsplit, List.reverse_reverse]
  rw [← hsplit, ← List.drop_drop, List.drop_left] at h ⊢
  cases rest with
  | nil => simp at h
  | cons dot front =>
    obtain rfl : dot = '.' := by simpa using hdot
    cases front with
    | nil => simp at h
    | cons c front =>
      cases tail with
      | nil => simp at h
      | cons d tail =>
        exact ⟨(c :: front).reverse,
          (d :: tail).reverse, by simp, rfl, by simpa using hname⟩

/-- A name ends as those of documents do: behind something, a dot and four
letters, each small or capital. -/
def HasDocumentSuffix (name : String) : Prop :=
  ∃ (stem : List Char) (j s o n : Char), stem ≠ []
    ∧ name.toList = stem ++ ['.', j, s, o, n]
    ∧ (j = 'j' ∨ j = 'J') ∧ (s = 's' ∨ s = 'S') ∧ (o = 'o' ∨ o = 'O')
    ∧ (n = 'n' ∨ n = 'N')

theorem isDocumentName_iff {name : String} :
    isDocumentName name = true ↔ HasDocumentSuffix name := by
  have hj {c : Char} : c.toLower = 'j' ↔ c = 'j' ∨ c = 'J' := toLower_eq_iff rfl
  have hs {c : Char} : c.toLower = 's' ↔ c = 's' ∨ c = 'S' := toLower_eq_iff rfl
  have ho {c : Char} : c.toLower = 'o' ↔ c = 'o' ∨ c = 'O' := toLower_eq_iff rfl
  have hn {c : Char} : c.toLower = 'n' ↔ c = 'n' ∨ c = 'N' := toLower_eq_iff rfl
  rw [isDocumentName, beq_iff_eq]
  constructor
  · intro h
    have hsome : suffix name ≠ [] := by
      intro hnone
      rw [hnone] at h
      cases h
    obtain ⟨stem, ext, hstem, hsuffix, hname⟩ := exists_stem_of_suffix hsome
    rw [hsuffix, List.map_cons, List.cons.injEq] at h
    simp only [List.map_eq_cons_iff, List.map_eq_nil_iff] at h
    obtain ⟨_, j, _, rfl, hlj, s, _, rfl, hls, o, _, rfl, hlo, n, _,
        rfl, hln, rfl⟩ := h
    exact ⟨stem, j, s, o, n, hstem, hname, hj.mp hlj, hs.mp hls,
      ho.mp hlo, hn.mp hln⟩
  · rintro ⟨stem, j, s, o, n, hstem, hname, hlj, hls, hlo, hln⟩
    have hdot : '.' ∉ [j, s, o, n] := by
      rcases hlj with rfl | rfl <;> rcases hls with rfl | rfl <;>
        rcases hlo with rfl | rfl <;> rcases hln with rfl | rfl <;> simp
    rw [suffix_of_append hname hstem (by simp) hdot]
    simp only [List.map_cons, List.map_nil, hj.mpr hlj, hs.mpr hls,
      ho.mpr hlo, hn.mpr hln]
    rfl

/-- Names without slashes are found again in the path that they make. -/
theorem eq_of_intercalate {a b : List String} (ha : a ≠ []) (hb : b ≠ [])
    (hplain : ∀ name ∈ a, '/' ∉ name.toList)
    (hplain' : ∀ name ∈ b, '/' ∉ name.toList)
    (h : "/".intercalate a = "/".intercalate b) : a = b := by
  have hsplit {names : List String} (hne : names ≠ []) (hnames : ∀ name ∈ names,
      '/' ∉ name.toList) :
      ("/".intercalate names).toList.splitOn '/' = names.map String.toList := by
    rw [String.toList_intercalate]
    exact List.splitOn_intercalate '/' (List.forall_mem_map.mpr hnames)
      (by simpa using hne)
  have hparts : a.map String.toList = b.map String.toList := by
    rw [← hsplit ha hplain, ← hsplit hb hplain', h]
  exact List.map_injective_iff.mpr (fun _ _ => String.toList_inj.mp) hparts

theorem mem_foldl_step {name : String} {base : Location} {names : List String}
    (h : name ∈ names.foldl step base) : name ∈ base ∨ name ∈ names := by
  induction names generalizing base with
  | nil => exact .inl h
  | cons part rest ih =>
    rcases ih h with hstep | hrest
    · unfold step at hstep
      split at hstep
      · exact .inl (List.mem_of_mem_dropLast hstep)
      · rcases List.mem_append.mp hstep with hbase | hpart
        · exact .inl hbase
        · exact .inr (List.mem_cons.mpr (.inl (List.mem_singleton.mp hpart)))
    · exact .inr (List.mem_cons_of_mem _ hrest)

end FilePath

namespace Store

variable {s t : Store}

/-! ## File systems -/

/-- A store lists every place once, and no name holds a slash. -/
structure IsFileSystem (s : Store) : Prop where
  places : s.HasDistinctPlaces
  names : ∀ e ∈ s.entries, ∀ name ∈ e.1, '/' ∉ name.toList

theorem isFileSystem_empty : empty.IsFileSystem where
  places := List.nodup_nil
  names := by simp [empty]

namespace IsFileSystem

theorem names_of_lookup (h : s.IsFileSystem) {q : Location} {c : Content}
    (hq : s.lookup q = some c) :
    ∀ name ∈ q, '/' ∉ name.toList := by
  by_cases hne : q = []
  · simp [hne]
  · exact h.names _ (mem_of_lookup hq hne)

theorem names_of_resolve {p : FilePath} {q : Location}
    (hp : ∀ part ∈ p.parts, '/' ∉ part.toList) (hq : s.resolve p = .ok q) :
    ∀ name ∈ q, '/' ∉ name.toList := by
  intro name hname
  rw [resolve_eq_location hq] at hname
  rcases FilePath.mem_foldl_step hname with hnil | hpart
  · cases hnil
  · exact hp name hpart

theorem put (h : s.IsFileSystem) {q : Location} (c : Content)
    (hq : ∀ name ∈ q, '/' ∉ name.toList) :
    (s.put q c).IsFileSystem where
  places := h.places.put q c
  names e he := by
    rcases mem_putEntry he with hplace | he
    · rw [hplace]
      exact hq
    · exact h.names e he

/-- Directories on the way to a path have names from the path. -/
theorem leadsTo (h : s.IsFileSystem) {p : FilePath}
    (hp : ∀ part ∈ p.parts, '/' ∉ part.toList) (hleads : s.LeadsTo p t)
    (hplaces : t.HasDistinctPlaces) : t.IsFileSystem where
  places := hplaces
  names e he := by
    obtain ⟨c, hc⟩ := exists_lookup_of_mem he
    rcases hleads e.1 with hsame | ⟨_, _, front, hfront, hresolve⟩
    · exact h.names_of_lookup (hsame ▸ hc)
    · exact names_of_resolve (fun part hpart => hp part (hfront.subset hpart))
        hresolve

theorem ensureDirectories (h : s.IsFileSystem) {p : FilePath}
    (hp : ∀ part ∈ p.parts, '/' ∉ part.toList) :
    (s.ensureDirectories p).2.IsFileSystem :=
  h.leadsTo hp (leadsTo_ensureDirectories s p)
    (h.places.evolves (evolves_ensureReversed s _ _))

theorem place (h : s.IsFileSystem) {p : FilePath}
    (hp : ∀ part ∈ p.parts, '/' ∉ part.toList) (bytes : ByteArray) :
    (s.place p bytes).2.IsFileSystem := by
  have hmade := h.ensureDirectories (p := p.parent) fun part hpart =>
    hp part (List.mem_of_mem_dropLast hpart)
  unfold Store.place
  split
  · rename_i fault made heq
    rwa [heq] at hmade
  · rename_i made heq
    rw [heq] at hmade
    split
    · exact hmade
    · rename_i written hwrite
      obtain ⟨q, hq, _, rfl⟩ := write_eq_ok.mp hwrite
      exact hmade.put _ (names_of_resolve hp hq)

theorem remove (h : s.IsFileSystem) {p : FilePath}
    (hremove : s.remove p = .ok t) : t.IsFileSystem := by
  unfold Store.remove at hremove
  split at hremove
  · cases hremove
  split at hremove
  · cases hremove
  · cases hremove
    exact ⟨h.places.sublist (List.filter_sublist.map _),
      fun e he => h.names e (List.mem_of_mem_filter he)⟩

theorem perm (h : s.IsFileSystem) (hperm : t.entries.Perm s.entries) :
    t.IsFileSystem where
  places := (hperm.map Prod.fst).nodup_iff.mpr h.places
  names e he := h.names e (hperm.mem_iff.mp he)

end IsFileSystem

/-- A store that changes through written paths have made out of an empty one. -/
inductive IsReached : Store → Prop
  | empty : IsReached empty
  | ensureDirectories {s : Store} (h : IsReached s) (given : String) :
      IsReached (s.ensureDirectories (.ofString given)).2
  | place {s : Store} (h : IsReached s) (given : String) (bytes : ByteArray) :
      IsReached (s.place (.ofString given) bytes).2
  | remove {s t : Store} {given : String} (h : IsReached s)
      (hremove : s.remove (.ofString given) = .ok t) :
      IsReached t

theorem IsReached.isFileSystem (h : s.IsReached) : s.IsFileSystem := by
  have hparts (given : String) : ∀ part ∈ (FilePath.ofString given).parts,
      '/' ∉ part.toList :=
    fun part hpart => (FilePath.isNormal_ofString given part hpart).2.2
  induction h with
  | empty => exact isFileSystem_empty
  | ensureDirectories _ given ih => exact ih.ensureDirectories (hparts given)
  | place _ given bytes ih => exact ih.place (hparts given) bytes
  | remove _ hremove ih => exact ih.remove hremove

/-! ## Orders of enumeration -/

theorem lookup_of_perm (hs : s.HasDistinctPlaces) (ht : t.HasDistinctPlaces)
    (hperm : t.entries.Perm s.entries) (q : Location) :
    t.lookup q = s.lookup q := by
  by_cases hq : q = []
  · rw [lookup, lookup, if_pos hq, if_pos hq]
  · ext c
    rw [ht.lookup_eq_some_iff hq, hs.lookup_eq_some_iff hq]
    exact hperm.mem_iff

theorem resolve_congr (h : ∀ q, t.lookup q = s.lookup q) (p : FilePath) :
    t.resolve p = s.resolve p := by
  have hfollow (base : Location) (names : List String) : t.follow base names
      = s.follow base names := by
    fun_induction follow s base names with
    | case2 base rest ih => simpa [follow] using ih
    | case5 base name rest hup hlong hmore hdirectory ih =>
      rw [follow, if_neg hlong, if_neg hmore, h, hdirectory]
      · exact ih
      · exact hup
    | _ => simp_all [follow]
  rw [resolve, resolve, hfollow]

/-! ## Documents below a directory -/

/-- There is a file at a location. -/
def HasFile (s : Store) (q : Location) : Prop :=
  ∃ bytes, s.lookup q = some (.file bytes)

/-- Names lead from a directory to a document: a file, at any depth, with the
suffix of documents. -/
structure IsDocumentBelow (s : Store) (base : Location) (names : List String) :
    Prop where
  below : names ≠ []
  isFile : s.HasFile (base ++ names)
  suffix : FilePath.HasDocumentSuffix (names.getLastD "")

theorem isDocumentBelow_iff (h : s.HasDistinctPlaces) {base : Location}
    {names : List String} :
    s.IsDocumentBelow base names
      ↔ names ∈ (s.filesBelow base).filter fun names =>
          FilePath.isDocumentName (names.getLastD "") := by
  rw [List.mem_filter, h.mem_filesBelow, FilePath.isDocumentName_iff]
  constructor
  · intro hdocument
    exact ⟨⟨hdocument.below, hdocument.isFile⟩, hdocument.suffix⟩
  · rintro ⟨⟨hne, hfile⟩, hsuffix⟩
    exact ⟨hne, hfile, hsuffix⟩

/-- A list has the documents below a directory and nothing else, in strict order
of their written paths. -/
structure Lists (s : Store) (base : Location) (found : List (List String)) :
    Prop where
  mem_iff : ∀ names, names ∈ found ↔ s.IsDocumentBelow base names
  ordered : found.Pairwise fun a b => "/".intercalate a < "/".intercalate b

namespace Lists

variable {base base' : Location} {found found' : List (List String)}

theorem nodup (h : s.Lists base found) : found.Nodup := by
  refine h.ordered.imp fun hlt heq => ?_
  rw [heq] at hlt
  exact String.lt_irrefl _ hlt

/-- What has the same documents has them in the same order. -/
theorem eq_of_same (h : s.Lists base found) (h' : t.Lists base' found')
    (hsame : ∀ names,
      t.IsDocumentBelow base' names ↔ s.IsDocumentBelow base names) :
    found' = found := by
  have hperm : found'.Perm found :=
    (List.perm_ext_iff_of_nodup h'.nodup h.nodup).mpr fun names => by
    rw [h'.mem_iff, h.mem_iff, hsame]
  refine List.Perm.eq_of_pairwise (fun a b _ _ hab hba => ?_)
    h'.ordered h.ordered hperm
  exact absurd hba (String.lt_asymm hab)

end Lists

/-- Sorting the documents of a directory by their written paths lists them. -/
theorem IsFileSystem.exists_lists (h : s.IsFileSystem) (root : FilePath)
    (base : Location) :
    ∃ found, s.Lists base found
      ∧ s.documentsBelow root base = found.map root.below := by
  refine ⟨_, ⟨fun names => ?_, ?_⟩, rfl⟩
  · rw [List.mem_mergeSort, isDocumentBelow_iff h.places]
  · have hnodup := (h.places.nodup_filesBelow base).filter fun names =>
      FilePath.isDocumentName (names.getLastD "")
    have hsorted := (pairwise_mergeSort_name "/".intercalate _).and
      ((List.mergeSort_perm _ _).nodup_iff.mpr hnodup)
    refine hsorted.imp_of_mem fun {a b} ha hb hab => ?_
    rw [List.mem_mergeSort, ← isDocumentBelow_iff h.places] at ha hb
    obtain ⟨_, hfile⟩ := ha.isFile
    obtain ⟨_, hfile'⟩ := hb.isFile
    -- two paths in order are strictly so, as one written path has one list of
    -- names
    have hplain := h.names_of_lookup hfile
    have hplain' := h.names_of_lookup hfile'
    have hne : "/".intercalate a ≠ "/".intercalate b :=
      fun heq => hab.2
        (FilePath.eq_of_intercalate ha.below hb.below
        (fun name hname => hplain name (by simp [hname]))
        (fun name hname => hplain' name (by simp [hname])) heq)
    exact String.not_le.mp fun hle => hne (String.le_antisymm hab.1 hle)

end Store

namespace Corpus

open Store

/-- Below a directory of a file system a corpus has every document, at any
depth, once, and nothing else, in strict code point order of the written paths
from the directory. There is one such list. So whatever the order in which a
tree is enumerated, and whatever else it holds, the corpus depends on its files
alone. -/
theorem discovery_is_canonical {s : Store} {root : FilePath} {base : Location}
    (hs : s.IsFileSystem) (hroot : s.resolve root = .ok base)
    (hbase : s.lookup base = some .directory) :
    ∃ found, open? s root = .ok ⟨root, found.map root.below⟩
      ∧ (∀ names, names ∈ found ↔ s.IsDocumentBelow base names)
      ∧ (found.map root.below).Nodup
      ∧ (found.map root.below).Pairwise
          (fun p q => root.relativeText p < root.relativeText q)
      ∧ (∀ names ∈ found,
          root.relativeText (root.below names) = "/".intercalate names)
      ∧ (∀ found', s.Lists base found' → found' = found)
      ∧ (∀ (t : Store) (base' : Location),
          t.IsFileSystem → t.resolve root = .ok base' →
          t.lookup base' = some .directory →
          (∀ names, t.HasFile (base' ++ names) ↔ s.HasFile (base ++ names)) →
            open? t root = open? s root)
      ∧ ∀ t : Store, t.entries.Perm s.entries →
          open? t root = open? s root := by
  obtain ⟨found, hfound, hdocuments⟩ := hs.exists_lists root base
  have hopen : open? s root = .ok ⟨root, found.map root.below⟩ :=
    open?_eq_ok.mpr ⟨base, hroot, hbase, by rw [hdocuments]⟩
  have htext : ∀ names ∈ found,
      root.relativeText (root.below names) = "/".intercalate names := by
    intro names hnames
    rw [FilePath.relativeText_below, FilePath.text,
      if_neg fun h => ((hfound.mem_iff names).mp hnames).below h.2]
    exact String.empty_append
  have hsame : ∀ (t : Store) (base' : Location),
      t.IsFileSystem → t.resolve root = .ok base' →
      t.lookup base' = some .directory →
      (∀ names, t.HasFile (base' ++ names) ↔ s.HasFile (base ++ names)) →
        open? t root = open? s root := by
    intro t base' ht hroot' hbase' hfiles
    obtain ⟨found', hfound', hdocuments'⟩ := ht.exists_lists root base'
    have heq : found' = found := hfound.eq_of_same hfound' fun names =>
      ⟨fun h => ⟨h.below, (hfiles names).mp h.isFile, h.suffix⟩,
        fun h => ⟨h.below, (hfiles names).mpr h.isFile, h.suffix⟩⟩
    rw [hopen]
    exact open?_eq_ok.mpr ⟨base', hroot', hbase', by rw [hdocuments', heq]⟩
  refine ⟨found, hopen, hfound.mem_iff,
    hfound.nodup.map (FilePath.below_injective root), ?_, htext, fun found' h =>
      hfound.eq_of_same h fun _ => Iff.rfl, hsame, fun t hperm => ?_⟩
  · rw [List.pairwise_map]
    refine hfound.ordered.imp_of_mem fun ha hb hab => ?_
    rwa [htext _ ha, htext _ hb]
  · have ht := hs.perm hperm
    have hlookup := lookup_of_perm hs.places ht.places hperm
    refine hsame t base ht ?_ ?_ fun names => ?_
    · rw [resolve_congr hlookup, hroot]
    · rw [hlookup, hbase]
    · simp only [HasFile, hlookup]

end Corpus

/-! ## A tree with look-alikes -/

/-- A tree with a document in a directory, two beside it, and a directory and
files that only look like documents. -/
def Store.lookalikes : Store :=
  ⟨[(["x"], .directory), (["x", "b.json"], .file .empty),
    (["x", "a"], .directory), (["x", "a", "c.JSON"], .file .empty),
    (["x", "d.json"], .directory), (["x", ".json"], .file .empty),
    (["x", "e.json5"], .file .empty), (["x", "a-b.json"], .file .empty)]⟩

theorem Store.isFileSystem_lookalikes : lookalikes.IsFileSystem where
  places := by decide
  names := by decide

/-- The hyphen comes before the slash, so a file beside the directory comes
before the file in it, in whatever order the tree is listed. -/
theorem Corpus.open?_lookalikes :
    open? .lookalikes (.ofString "x")
      = .ok ⟨.ofString "x",
      [⟨.working, ["x", "a-b.json"]⟩, ⟨.working, ["x", "a", "c.JSON"]⟩,
       ⟨.working, ["x", "b.json"]⟩]⟩
      ∧ open? ⟨Store.lookalikes.entries.reverse⟩ (.ofString "x")
          = open? .lookalikes (.ofString "x") := by
  obtain ⟨found, hopen, _, _, _, _, hunique, _, hperm⟩ :=
    @discovery_is_canonical _ (.ofString "x") ["x"]
      Store.isFileSystem_lookalikes rfl rfl
  have hdocuments : (Store.lookalikes.filesBelow ["x"]).filter
      (fun names => FilePath.isDocumentName (names.getLastD ""))
        = [["b.json"], ["a", "c.JSON"], ["a-b.json"]] := by
    decide +kernel
  have hfound : [["a-b.json"], ["a", "c.JSON"], ["b.json"]] = found := by
    refine hunique _ ⟨fun names => ?_, by decide⟩
    rw [Store.isDocumentBelow_iff Store.isFileSystem_lookalikes.places,
      hdocuments]
    exact (List.reverse_perm [["b.json"], ["a", "c.JSON"],
      ["a-b.json"]]).mem_iff
  refine ⟨?_, hperm _ (List.reverse_perm _)⟩
  rw [hopen, ← hfound]
  rfl

end LeafSurvey
