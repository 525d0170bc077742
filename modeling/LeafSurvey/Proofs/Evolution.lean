import LeafSurvey.Corpus
import LeafSurvey.Proofs.Placing
import LeafSurvey.Proofs.Writing
import LeafSurvey.Proofs.Discovery

/-!
# Stores that evolve

Whatever is written, a store changes in steps of two kinds: a directory is made
where a path leads and nothing is, or a file is put where a path leads and no
directory is. `Evolves` is any number of such steps, with the locations at which
files may be put. Each fact about what stays is proved for one step and holds
for every history.

* `evolves_place`: placing a file, whether it succeeds or not, puts a file at
  the location of its path at most;
* `Evolves.lookup`, `Evolves.filesBelow`: what stays of files at other
  locations;
* `Evolves.resolve`: what stays of paths;
* `IsTree.follow`: in a store that is a tree nothing is missing on the way to
  what it holds;
* `IsTree.evolves`: a tree stays one.
-/

namespace LeafSurvey

namespace FilePath

/-- The location after one more component. -/
def step (base : Location) (part : String) : Location :=
  if part = ".." then base.dropLast else base ++ [part]

/-- The location that a path leads to, wherever it leads to one. -/
def location (p : FilePath) : Location :=
  p.parts.foldl step []

end FilePath

namespace Store

theorem follow_eq_foldl {s : Store} {base q : Location} {names : List String}
    (h : s.follow base names = .ok q) : q = names.foldl FilePath.step base := by
  fun_induction follow s base names with
  | case1 base =>
    cases h
    rfl
  | case2 base rest ih => exact ih h
  | case4 base name rest hup hlong hlast =>
    cases List.isEmpty_iff.mp hlast
    cases h
    rw [List.foldl_cons, List.foldl_nil, FilePath.step, if_neg hup]
  | case5 base name rest hup hlong hmore hdirectory ih =>
    rw [List.foldl_cons, FilePath.step, if_neg hup]
    exact ih h
  | _ => cases h

theorem follow_of_resolve {s : Store} {p : FilePath} {q : Location}
    (h : s.resolve p = .ok q) :
    s.follow [] p.parts = .ok q := by
  unfold resolve at h
  split at h
  · cases h
  split at h
  · cases h
  exact h

theorem resolve_eq_location {s : Store} {p : FilePath} {q : Location}
    (h : s.resolve p = .ok q) :
    q = p.location :=
  follow_eq_foldl (follow_of_resolve h)

theorem read_eq_ok {s : Store} {p : FilePath} {bytes : ByteArray} :
    s.read p = .ok bytes
      ↔ ∃ q, s.resolve p = .ok q ∧ s.lookup q = some (.file bytes) := by
  unfold read
  cases s.resolve p with
  | error problem => simp
  | ok q =>
    simp only [Except.ok.injEq, exists_eq_left']
    cases hfound : s.lookup q with
    | none => simp
    | some c => cases c <;> simp

/-- What is listed is found. -/
theorem exists_lookup_of_mem {s : Store} {e : Location × Content}
    (h : e ∈ s.entries) :
    ∃ c, s.lookup e.1 = some c := by
  unfold lookup
  split
  · exact ⟨_, rfl⟩
  · have hsome : (s.entries.find? fun e' => e'.1 = e.1).isSome := by
      rw [List.find?_isSome]
      exact ⟨e, h, by simp⟩
    obtain ⟨e', he'⟩ := Option.isSome_iff_exists.mp hsome
    exact ⟨e'.2, by rw [he', Option.map_some]⟩

/-- What is found is listed, unless it is the working directory. -/
theorem mem_of_lookup {s : Store} {q : Location} {c : Content}
    (h : s.lookup q = some c) (hne : q ≠ []) :
    (q, c) ∈ s.entries := by
  rw [lookup, if_neg hne] at h
  obtain ⟨e, he, rfl⟩ := Option.map_eq_some_iff.mp h
  have hplace : e.1 = q := by simpa using List.find?_some he
  subst hplace
  exact List.mem_of_find?_eq_some he

theorem exists_lookup_of_mem_filesBelow {s : Store} {base : Location}
    {names : List String} (h : names ∈ s.filesBelow base) :
    ∃ c, s.lookup (base ++ names) = some c := by
  rw [filesBelow_eq, List.mem_filterMap] at h
  obtain ⟨e, he, hbelow⟩ := h
  obtain ⟨_, _, rfl⟩ := namesBelow?_eq_some.mp hbelow
  exact exists_lookup_of_mem he

/-- One store has become another: where paths led, directories have been made in
place of nothing, and files have been put at locations where they may be. -/
inductive Evolves (writable : Location → Prop) (s : Store) : Store → Prop
  | refl : Evolves writable s s
  | directory {t : Store} {p : FilePath} {q : Location}
      (h : Evolves writable s t)
      (hp : t.resolve p = .ok q) (hnone : t.lookup q = none) :
        Evolves writable s (t.put q .directory)
  | file {t : Store} {p : FilePath} {q : Location} {bytes : ByteArray}
      (h : Evolves writable s t)
      (hp : t.resolve p = .ok q) (hfree : t.lookup q ≠ some .directory)
      (hq : writable q) :
      Evolves writable s (t.put q (.file bytes))

namespace Evolves

variable {writable writable' : Location → Prop} {s t u : Store}

theorem trans (h : s.Evolves writable t) (h' : t.Evolves writable u) :
    s.Evolves writable u := by
  induction h' with
  | refl => exact h
  | directory _ hp hnone ih => exact ih.directory hp hnone
  | file _ hp hfree hq ih => exact ih.file hp hfree hq

theorem mono (h : s.Evolves writable t) (hw : ∀ q, writable q → writable' q) :
    s.Evolves writable' t := by
  induction h with
  | refl => exact .refl
  | directory _ hp hnone ih => exact ih.directory hp hnone
  | file _ hp hfree hq ih => exact ih.file hp hfree (hw _ hq)

/-! ## What stays -/

theorem keepsDirectories (h : s.Evolves writable t) : s.KeepsDirectories t := by
  induction h with
  | refl => exact fun _ hq => hq
  | directory _ _ hnone ih =>
    exact fun q hq => keepsDirectories_put _ (by simp [hnone]) q (ih q hq)
  | file _ _ hfree _ ih =>
    exact fun q hq => keepsDirectories_put _ hfree q (ih q hq)

/-- A file stays a file, and the same one where none may be put. -/
theorem lookup_file (h : s.Evolves writable t) {q : Location}
    {bytes : ByteArray} (hq : s.lookup q = some (.file bytes)) :
    ∃ bytes', t.lookup q = some (.file bytes')
      ∧ (¬writable q → bytes' = bytes) := by
  induction h with
  | refl => exact ⟨bytes, hq, fun _ => rfl⟩
  | @directory t _ place _ _ hnone ih =>
    obtain ⟨bytes', hfile, hsame⟩ := ih
    have hne : place ≠ [] := by
      rintro rfl
      cases hnone
    have hother : q ≠ place := by
      rintro rfl
      cases hnone.symm.trans hfile
    exact ⟨bytes', by rw [lookup_put _ hne, if_neg hother, hfile], hsame⟩
  | @file t _ place new _ _ hfree hplace ih =>
    obtain ⟨bytes', hfile, hsame⟩ := ih
    have hne : place ≠ [] := by
      rintro rfl
      exact hfree rfl
    by_cases hq' : q = place
    · subst hq'
      exact ⟨new, by rw [lookup_put _ hne, if_pos rfl],
        fun hnot => absurd hplace hnot⟩
    · exact ⟨bytes', by rw [lookup_put _ hne, if_neg hq', hfile], hsame⟩

/-- What is there stays where no file may be put. -/
theorem lookup (h : s.Evolves writable t) {q : Location} {c : Content}
    (hq : s.lookup q = some c) (hnot : ¬writable q) : t.lookup q = some c := by
  cases c with
  | directory => exact h.keepsDirectories q hq
  | file bytes =>
    obtain ⟨bytes', hfile, hsame⟩ := h.lookup_file hq
    rw [hfile, hsame hnot]

/-- Paths lead where they led, and fail as they failed, unless something was
missing on the way. -/
theorem follow (h : s.Evolves writable t) {base : Location}
    {names : List String} (hfound : s.follow base names ≠ .error .missing) :
    t.follow base names = s.follow base names := by
  fun_induction Store.follow s base names with
  | case1 base => rfl
  | case2 base rest ih => rw [Store.follow, ih hfound]
  | case3 base name rest hup hlong =>
    rw [Store.follow, if_pos hlong]
    exact hup
  | case4 base name rest hup hlong hlast =>
    rw [Store.follow, if_neg hlong, if_pos hlast]
    exact hup
  | case5 base name rest hup hlong hmore hdirectory ih =>
    rw [Store.follow, if_neg hlong, if_neg hmore,
      h.keepsDirectories _ hdirectory]
    · exact ih hfound
    · exact hup
  | case6 base name rest hup hlong hmore bytes hfile =>
    obtain ⟨bytes', hfile', _⟩ := h.lookup_file hfile
    rw [Store.follow, if_neg hlong, if_neg hmore, hfile']
    exact hup
  | case7 => exact absurd rfl hfound

theorem resolve (h : s.Evolves writable t) {p : FilePath}
    (hfound : s.resolve p ≠ .error .missing) :
    t.resolve p = s.resolve p := by
  unfold Store.resolve at hfound ⊢
  split at hfound
  · rename_i hnull
    rw [if_pos hnull, if_pos hnull]
  split at hfound
  · rename_i hnull hlong
    rw [if_neg hnull, if_pos hlong, if_neg hnull, if_pos hlong]
  · rename_i hnull hlong
    rw [if_neg hnull, if_neg hlong, if_neg hnull, if_neg hlong, h.follow hfound]

/-- A file is found and read as before where no file may be put. -/
theorem read (h : s.Evolves writable t) {p : FilePath} {bytes : ByteArray}
    (hread : s.read p = .ok bytes) (hnot : ¬writable p.location) :
    t.read p = s.read p ∧ t.find? p = s.find? p := by
  obtain ⟨q, hq, hfile⟩ := read_eq_ok.mp hread
  have hkept := h.keepsDirectories.resolve hq
  have hplace := h.lookup hfile (resolve_eq_location hq ▸ hnot)
  rw [hread, read_eq_ok.mpr ⟨q, hkept, hplace⟩, Store.find?,
    Store.find?, hq, hkept]
  simp only [hfile, hplace, and_self]

end Evolves

/-! ## Files below a directory -/

theorem mem_putEntry {place : Location} {c : Content} {e : Location × Content}
    {es : List (Location × Content)} (h : e ∈ putEntry place c es) :
    e.1 = place ∨ e ∈ es := by
  induction es with
  | nil => exact .inl (congrArg Prod.fst (List.mem_singleton.mp h))
  | cons first rest ih =>
    by_cases hplace : first.1 = place
    · rw [putEntry, if_pos hplace] at h
      rcases List.mem_cons.mp h with rfl | h
      · exact .inl rfl
      · exact .inr (List.mem_cons_of_mem _ h)
    · rw [putEntry, if_neg hplace] at h
      rcases List.mem_cons.mp h with rfl | h
      · exact .inr (List.mem_cons_self ..)
      · exact (ih h).imp_right (List.mem_cons_of_mem _)

/-- An entry that is put does not count where neither it nor what it replaces
counts. -/
theorem filterMap_putEntry {α : Type} {f : Location × Content → Option α}
    {place : Location} {c : Content} {es : List (Location × Content)}
    (hnew : f (place, c) = none) (hold : ∀ e ∈ es, e.1 = place → f e = none) :
    (putEntry place c es).filterMap f = es.filterMap f := by
  induction es with
  | nil => simp [putEntry, hnew]
  | cons e rest ih =>
    obtain ⟨he, hrest⟩ := List.forall_mem_cons.mp hold
    by_cases hplace : e.1 = place
    · rw [putEntry, if_pos hplace, List.filterMap_cons_none hnew,
        List.filterMap_cons_none (he hplace)]
    · rw [putEntry, if_neg hplace, List.filterMap_cons, List.filterMap_cons,
        ih hrest]

theorem Evolves.filesBelow {writable : Location → Prop} {s t : Store}
    (h : s.Evolves writable t) {base : Location}
    (hout : ∀ q, writable q → ¬base <+: q) :
    t.filesBelow base = s.filesBelow base := by
  induction h with
  | refl => rfl
  | @directory t _ place _ _ hnone ih =>
    rw [← ih, filesBelow_eq, filesBelow_eq]
    refine filterMap_putEntry rfl fun e he hplace => ?_
    obtain ⟨c, hc⟩ := exists_lookup_of_mem he
    rw [hplace, hnone] at hc
    cases hc
  | @file t _ place bytes _ _ _ hplace ih =>
    have hnames : ∀ c, namesBelow? base (place, c) = none := by
      intro c
      by_contra hsome
      obtain ⟨names, hnames⟩ := Option.ne_none_iff_exists'.mp hsome
      obtain ⟨_, _, he⟩ := namesBelow?_eq_some.mp hnames
      cases he
      exact hout _ hplace (List.prefix_append _ _)
    rw [← ih, filesBelow_eq, filesBelow_eq]
    refine filterMap_putEntry (hnames _) fun e _ he => ?_
    rw [← hnames e.2, ← he]

/-! ## Trees -/

/-- Everything lies in a directory, and no name leads back up. -/
structure IsTree (s : Store) : Prop where
  parents : ∀ e ∈ s.entries, s.lookup e.1.dropLast = some .directory
  names : ∀ e ∈ s.entries, ".." ∉ e.1

theorem isTree_empty : empty.IsTree :=
  ⟨by simp [empty], by simp [empty]⟩

namespace IsTree

variable {s : Store}

/-- What lies above something is a directory. -/
theorem lookup_of_prefix (h : s.IsTree) {front rest : Location}
    (hrest : rest ≠ []) (hfound : ∃ c, s.lookup (front ++ rest) = some c) :
    s.lookup front = some .directory := by
  induction rest using List.reverseRecOn with
  | nil => exact absurd rfl hrest
  | append_singleton rest name ih =>
    obtain ⟨c, hc⟩ := hfound
    have hparent := h.parents _ (mem_of_lookup hc (by simp))
    rw [← List.append_assoc, List.dropLast_concat] at hparent
    by_cases hnil : rest = []
    · rwa [hnil, List.append_nil] at hparent
    · exact ih hnil ⟨_, hparent⟩

/-- Nothing is missing on the way down to what the store holds. -/
theorem follow (h : s.IsTree) {base names : Location} (hnames : names ≠ [])
    (hfound : ∃ c, s.lookup (base ++ names) = some c) :
    s.follow base names = .ok (base ++ names)
      ∨ s.follow base names = .error .tooLong := by
  induction names generalizing base with
  | nil => exact absurd rfl hnames
  | cons name rest ih =>
    obtain ⟨c, hc⟩ := hfound
    have hup : name ≠ ".." := by
      rintro rfl
      exact h.names _ (mem_of_lookup hc (by simp)) (by simp)
    by_cases hlong : maxName < name.utf8ByteSize
    · right
      rw [Store.follow, if_pos hlong]
      exact hup
    by_cases hlast : rest = []
    · left
      rw [hlast, Store.follow, if_neg hlong]
      · rfl
      · exact hup
    · have happend : base ++ name :: rest = base ++ [name] ++ rest := by simp
      rw [happend] at hc
      rw [Store.follow, if_neg hlong, if_neg (by simpa using hlast),
        h.lookup_of_prefix hlast ⟨c, hc⟩, happend]
      · exact ih hlast ⟨c, hc⟩
      · exact hup

/-- What there is lies in a directory, and its location has no name that leads
back up. -/
theorem above (h : s.IsTree) {q : Location} {c : Content}
    (hq : s.lookup q = some c) :
    s.lookup q.dropLast = some .directory ∧ ".." ∉ q := by
  by_cases hne : q = []
  · subst hne
    exact ⟨rfl, by simp⟩
  · have hmem := mem_of_lookup hq hne
    exact ⟨h.parents _ hmem, h.names _ hmem⟩

/-- So it is with everything that names lead to. -/
theorem above_of_follow (h : s.IsTree) {base q : Location} {names : List String}
    (hbase : s.lookup base = some .directory)
    (hq : s.follow base names = .ok q) :
    s.lookup q.dropLast = some .directory ∧ ".." ∉ q := by
  fun_induction Store.follow s base names with
  | case1 base =>
    cases hq
    exact h.above hbase
  | case2 base rest ih => exact ih (h.above hbase).1 hq
  | case4 base name rest hup hlong hlast =>
    cases hq
    rw [List.dropLast_concat]
    refine ⟨hbase, fun hmem => ?_⟩
    rcases List.mem_append.mp hmem with hmem | hmem
    · exact (h.above hbase).2 hmem
    · exact hup (List.mem_singleton.mp hmem).symm
  | case5 base name rest hup hlong hmore hdirectory ih => exact ih hdirectory hq
  | _ => cases hq

theorem put (h : s.IsTree) {p : FilePath} {q : Location} (c : Content)
    (hp : s.resolve p = .ok q) (hfree : s.lookup q ≠ some .directory) :
    (s.put q c).IsTree := by
  have hkeeps := keepsDirectories_put c hfree
  obtain ⟨hparent, hname⟩ := h.above_of_follow rfl (follow_of_resolve hp)
  constructor
  · intro e he
    rcases mem_putEntry he with hplace | he
    · exact hkeeps _ (hplace ▸ hparent)
    · exact hkeeps _ (h.parents e he)
  · intro e he
    rcases mem_putEntry he with hplace | he
    · exact hplace ▸ hname
    · exact h.names e he

end IsTree

/-- Whatever is written, a tree stays a tree. -/
theorem IsTree.evolves {writable : Location → Prop} {s t : Store} (h : s.IsTree)
    (hevolves : s.Evolves writable t) : t.IsTree := by
  induction hevolves with
  | refl => exact h
  | directory _ hp hnone ih => exact ih.put .directory hp (by simp [hnone])
  | file _ hp hfree _ ih => exact ih.put _ hp hfree

/-- Names are followed from the directory that those before them lead to. -/
theorem follow_append {s : Store} {base place : Location}
    {front rest : List String} (hfront : s.follow base front = .ok place)
    (hplace : s.lookup place = some .directory) :
    s.follow base (front ++ rest) = s.follow place rest := by
  fun_induction Store.follow s base front with
  | case1 base =>
    cases hfront
    rfl
  | case2 base more ih => rw [List.cons_append, Store.follow, ih hfront]
  | case3 => cases hfront
  | case4 base name more hup hlong hlast =>
    cases List.isEmpty_iff.mp hlast
    cases hfront
    by_cases hrest : rest = []
    · rw [hrest, List.append_nil, Store.follow, Store.follow, if_neg hlong]
      · rfl
      · exact hup
    · rw [List.singleton_append, Store.follow, if_neg hlong,
        if_neg (by simpa using hrest), hplace]
      exact hup
  | case5 base name more hup hlong hmore hdirectory ih =>
    have hne : ¬(more ++ rest).isEmpty = true := by
      intro hnil
      exact hmore (by simp_all)
    rw [List.cons_append, Store.follow, if_neg hlong, if_neg hne, hdirectory]
    · exact ih hfront
    · exact hup
  | case6 => cases hfront
  | case7 => cases hfront

/-- In a tree a file below a directory is never missing. -/
theorem IsTree.resolve_below {s : Store} (h : s.IsTree) {root : FilePath}
    {base : Location} {names : List String} (hroot : s.resolve root = .ok base)
    (hbase : s.lookup base = some .directory)
    (hnames : names ∈ s.filesBelow base) :
    s.resolve (root.below names) ≠ .error .missing
      ∧ ∀ q, s.resolve (root.below names) = .ok q → q = base ++ names := by
  have hfollow :=
    h.follow (ne_nil_of_mem_filesBelow hnames)
      (exists_lookup_of_mem_filesBelow hnames)
  unfold resolve
  split
  · simp
  split
  · simp
  rw [FilePath.below, follow_append (follow_of_resolve hroot) hbase]
  rcases hfollow with hok | hlong
  · simp [hok]
  · simp [hlong]

/-- A file below a directory is read as before where none may be put there. -/
theorem Evolves.read_below {writable : Location → Prop} {s t : Store}
    (h : s.Evolves writable t) (htree : s.IsTree) {root : FilePath}
    {base : Location} {names : List String} (hroot : s.resolve root = .ok base)
    (hbase : s.lookup base = some .directory)
    (hnames : names ∈ s.filesBelow base)
    (hout : ∀ q, writable q → ¬base <+: q) :
    t.read (root.below names) = s.read (root.below names) := by
  obtain ⟨hmissing, hplace⟩ := htree.resolve_below hroot hbase hnames
  rw [Store.read, Store.read, h.resolve hmissing]
  cases hq : s.resolve (root.below names) with
  | error problem => rfl
  | ok q =>
    obtain ⟨c, hc⟩ := exists_lookup_of_mem_filesBelow hnames
    cases hplace q hq
    have hkept :=
      h.lookup hc fun hwritable => hout _ hwritable (List.prefix_append _ _)
    simp only [hc, hkept]

/-! ## What placing a file does -/

theorem evolves_makeDirectory {s made : Store} {p : FilePath}
    (h : s.makeDirectory p = .ok made) :
    s.Evolves (fun _ => False) made := by
  obtain ⟨place, hplace, hnone, rfl⟩ := makeDirectory_eq_ok h
  exact Evolves.refl.directory hplace hnone

theorem evolves_settled (s : Store) (p : FilePath) (fault : FileFault) :
    s.Evolves (fun _ => False) (s.settled p fault).2 := by
  unfold settled
  split <;> exact .refl

theorem evolves_ensureDirectory (s : Store) (p : FilePath) :
    s.Evolves (fun _ => False) (s.ensureDirectory p).2 := by
  unfold ensureDirectory
  cases h : s.makeDirectory p with
  | ok made => exact evolves_makeDirectory h
  | error fault =>
    by_cases hmissing : fault.problem = .missing
    · simpa [hmissing] using Evolves.refl
    · simpa [hmissing] using evolves_settled s p fault

theorem evolves_ensureReversed (s : Store) (anchor : Anchor)
    (reversed : List String) :
    s.Evolves (fun _ => False) (s.ensureReversed anchor reversed).2 := by
  fun_induction ensureReversed s anchor reversed with
  | case1 => exact evolves_ensureDirectory s _
  | case2 part above p made hmade => exact evolves_makeDirectory hmade
  | case3 part above p fault hfault hmissing made hmade ih =>
    rw [hmade] at ih
    exact ih.trans (evolves_ensureDirectory made p)
  | case4 part above p fault hfault hmissing f made hmade ih =>
    rw [hmade] at ih
    exact ih
  | case5 part above p fault => exact evolves_settled s p fault

/-- Placing a file puts a file at the location of its path at most, whether it
succeeds or not. -/
theorem evolves_place (s : Store) (p : FilePath) (bytes : ByteArray) :
    s.Evolves (· = p.location) (s.place p bytes).2 := by
  have hdirectories : s.Evolves (· = p.location)
      (s.ensureReversed p.parent.anchor p.parent.parts.reverse).2 :=
    (evolves_ensureReversed s p.parent.anchor p.parent.parts.reverse).mono
      fun _ h => h.elim
  unfold place ensureDirectories
  rcases hmade : s.ensureReversed p.parent.anchor p.parent.parts.reverse with
    ⟨_ | _, made⟩ <;>
    rw [hmade] at hdirectories
  · exact hdirectories
  · cases hwrite : made.write p bytes with
    | error fault => simpa [hwrite] using hdirectories
    | ok written =>
      obtain ⟨q, hq, hfree, rfl⟩ := write_eq_ok.mp hwrite
      simpa [hwrite] using hdirectories.file hq hfree (resolve_eq_location hq)

end Store

theorem Survey.evolves_writeValue (s : Store) (path : FilePath) (v : Value) :
    s.Evolves (· = path.location) (writeValue path v s).2 := by
  have h := s.evolves_place path (fileBytes v)
  unfold writeValue
  rcases hplace : s.place path (fileBytes v) with ⟨fault | _, left⟩ <;>
    simp only [← fileBytes.eq_1, hplace] at h ⊢
  · exact h
  · split <;> exact h

end LeafSurvey
