import LeafSurvey.Command.Basic
import LeafSurvey.Proofs.Outcome
import LeafSurvey.Proofs.RepeatedKeys

/-!
# Overrides of overrides

Settings are overridden twice on the way to a run: the usual ones by the
settings file, and the outcome by the command line. Overriding puts values in
and then checks and reads what has come out, so it can be taken apart:
`Settings.Unchecked.replace` puts in, `Settings.Unchecked.check?` checks and
reads.

* `check?_replace`: what has been checked and read may be overridden as if it
  had not been;
* `given?_updated`: overrides that are updated give what the later ones give,
  and else what they gave;
* `override?_override?`: so overriding twice is overriding once;
* `exists_sources_of_runSettings`: each setting of a run comes from the line,
  else from the file, else it is the usual one;
* `Unchecked.Makes.isSettled`: what has come out of overrides stays as it is.
-/

namespace LeafSurvey

/-! ## Paths in normal form -/

namespace FilePath

/-- No component is empty or a single dot, and none holds a slash. -/
def IsNormal (p : FilePath) : Prop :=
  ∀ part ∈ p.parts, part ≠ "" ∧ part ≠ "." ∧ '/' ∉ part.toList

/-- What stands between separators holds none. -/
theorem notMem_of_mem_splitOn {sep : Char} {cs part : List Char}
    (h : part ∈ cs.splitOn sep) : sep ∉ part := by
  induction cs generalizing part with
  | nil =>
    rw [List.splitOn_nil, List.mem_singleton] at h
    rw [h]
    exact List.not_mem_nil
  | cons c rest ih =>
    rw [List.splitOn, List.splitOnP_cons_eq_if_modifyHead, ← List.splitOn] at h
    by_cases hc : c = sep
    · rw [if_pos (beq_iff_eq.mpr hc)] at h
      rcases List.mem_cons.mp h with rfl | h
      · exact List.not_mem_nil
      · exact ih h
    · rw [if_neg fun heq => hc (beq_iff_eq.mp heq)] at h
      -- the first part of what follows has the character in front
      obtain ⟨first, others, hsplit⟩ :=
        List.exists_cons_of_ne_nil (List.splitOnP_ne_nil (· == sep) rest)
      rw [List.splitOn] at h ih
      rw [hsplit, List.modifyHead_cons] at h
      rcases List.mem_cons.mp h with rfl | h
      · rw [List.mem_cons, not_or]
        exact ⟨Ne.symm hc, ih (hsplit ▸ List.mem_cons_self)⟩
      · exact ih (hsplit ▸ List.mem_cons_of_mem _ h)

/-- A path that is read is in normal form. -/
theorem isNormal_ofString (s : String) : (ofString s).IsNormal := by
  intro part hpart
  obtain ⟨hsplit, hkept⟩ := List.mem_filter.mp hpart
  obtain ⟨cs, hcs, rfl⟩ := List.mem_map.mp hsplit
  rw [Bool.and_eq_true, decide_eq_true_eq, decide_eq_true_eq] at hkept
  refine ⟨hkept.1, hkept.2, ?_⟩
  rw [String.toList_ofList]
  exact notMem_of_mem_splitOn hcs

end FilePath

namespace Settings

theorem isNormal_of_path? {v : Value} {p : FilePath} (h : path? v = .ok p) :
    p.IsNormal := by
  unfold path? at h
  split at h
  · cases h
    exact FilePath.isNormal_ofString _
  · cases h
    exact FilePath.isNormal_ofString _
  · cases h

/-! ## Settings that are not checked -/

/-- Where an output goes, in settings that are not checked: a path, or a value
that may name one. -/
inductive PathSetting where
  | path (p : FilePath)
  | value (v : Value)

/-- The path of an output. -/
def PathSetting.path? : PathSetting → Except Failure FilePath
  | path p => .ok p
  | value v => Settings.path? v

/-- A path is in normal form; a value will be read into one. -/
def PathSetting.IsNormal : PathSetting → Prop
  | path p => p.IsNormal
  | value _ => True

theorem PathSetting.isNormal_of_path? {x : PathSetting} {p : FilePath}
    (hx : x.IsNormal) (h : x.path? = .ok p) : p.IsNormal := by
  cases x with
  | path q =>
    cases h
    exact hx
  | value v => exact Settings.isNormal_of_path? h

/-- Settings that are not checked. Every one of them may be any value. -/
structure Unchecked where
  key : Value
  name : Value
  description : Value
  resourceTypes : Value
  locale : Value
  delimiter : Value
  reportFile : PathSetting
  draftFile : PathSetting

/-- Settings as if they were not checked. -/
def unchecked (s : Settings) : Unchecked where
  key := s.key
  name := s.name
  description := s.description
  resourceTypes := .list (s.resourceTypes.map .ofWord)
  locale := s.locale
  delimiter := s.delimiter
  reportFile := .path s.reportFile
  draftFile := .path s.draftFile

end Settings

/-- The value that overrides give for a setting. A null gives none. -/
def Overrides.given? (o : Overrides) (name : String) : Option Value :=
  (o.filter fun x => Settings.isGiven x.2).lookup name

namespace Settings

namespace Unchecked

/-- The settings with the values given for some of them put in. -/
def replace (u : Unchecked) (given : String → Option Value) : Unchecked where
  key := (given "key").getD u.key
  name := (given "name").getD u.name
  description := (given "description").getD u.description
  resourceTypes := (given resourceTypesName).getD u.resourceTypes
  locale := (given "locale").getD u.locale
  delimiter := (given "delimiter").getD u.delimiter
  reportFile := ((given "report_path").map PathSetting.value).getD u.reportFile
  draftFile := ((given "draft_path").map PathSetting.value).getD u.draftFile

/-- The settings when they pass the checks, in their own form. -/
def check? (u : Unchecked) : Except Failure Settings := do
  if !u.delimiter.isTruthy then throw (.settings .emptyDelimiter)
  let ids ← resourceTypes? u.resourceTypes
  let reportFile ← u.reportFile.path?
  let draftFile ← u.draftFile.path?
  return {
    key := u.key
    name := u.name
    description := u.description
    resourceTypes := ids
    locale := u.locale
    delimiter := u.delimiter
    reportFile := reportFile
    draftFile := draftFile }

/-- The settings with overrides. -/
def override? (u : Unchecked) (overrides : Overrides) :
    Except Failure Settings :=
  match overrides.find? isRefused with
  | some o => .error (.misuse (.unknownSetting o.1))
  | none => (u.replace overrides.given?).check?

/-- Settings are those of `u` in their own form. -/
structure Makes (u : Unchecked) (s : Settings) : Prop where
  key_eq : s.key = u.key
  name_eq : s.name = u.name
  description_eq : s.description = u.description
  resourceTypes_eq : resourceTypes? u.resourceTypes = .ok s.resourceTypes
  locale_eq : s.locale = u.locale
  delimiter_eq : s.delimiter = u.delimiter
  isTruthy : u.delimiter.isTruthy = true
  reportFile_eq : u.reportFile.path? = .ok s.reportFile
  draftFile_eq : u.draftFile.path? = .ok s.draftFile

theorem check?_eq_ok {u : Unchecked} {s : Settings} :
    u.check? = .ok s ↔ u.Makes s := by
  rw [check?]
  cases htruthy : u.delimiter.isTruthy with
  | false =>
    constructor
    · intro h
      cases h
    · intro h
      rw [h.isTruthy] at htruthy
      cases htruthy
  | true =>
    constructor
    · intro h
      obtain ⟨ids, hids, h⟩ := Outcome.bind_eq_ok.mp h
      obtain ⟨reportFile, hreport, h⟩ := Outcome.bind_eq_ok.mp h
      obtain ⟨draftFile, hdraft, h⟩ := Outcome.bind_eq_ok.mp h
      cases h
      exact ⟨rfl, rfl, rfl, hids, rfl, rfl, htruthy, hreport, hdraft⟩
    · rintro ⟨hkey, hname, hdescription, hids, hlocale, hdelimiter, _,
        hreport, hdraft⟩
      rw [hids, hreport, hdraft, ← hkey, ← hname, ← hdescription,
        ← hlocale, ← hdelimiter]
      rfl

/-- The outcome of the checks depends on resource types and paths only by what
they are read as. -/
theorem check?_congr {u w : Unchecked} (hkey : u.key = w.key)
    (hname : u.name = w.name) (hdescription : u.description = w.description)
    (hids : resourceTypes? u.resourceTypes = resourceTypes? w.resourceTypes)
    (hlocale : u.locale = w.locale) (hdelimiter : u.delimiter = w.delimiter)
    (hreport : u.reportFile.path? = w.reportFile.path?)
    (hdraft : u.draftFile.path? = w.draftFile.path?) : u.check? = w.check? := by
  rw [check?, check?, hkey, hname, hdescription, hids, hlocale, hdelimiter,
    hreport, hdraft]

/-- Values put in twice are the later ones, and else the earlier ones, put in
once. -/
theorem replace_replace (u : Unchecked) (f g : String → Option Value) :
    (u.replace f).replace g = u.replace fun name => (g name).or (f name) := by
  simp only [replace, Option.getD_or, Option.map_or]

end Unchecked

/-- Words that are put into words stay as they are. -/
theorem resourceTypes?_list_words (ids : List Value.Word) :
    resourceTypes? (.list (ids.map .ofWord)) = .ok ids := by
  have htext : (ids.map Value.ofWord).all Value.hasText = true := by
    rw [List.all_map, List.all_eq_true]
    intro w _
    cases w <;> rfl
  have hword : Value.word ∘ Value.ofWord = id := by
    funext w
    cases w <;> rfl
  rw [resourceTypes?, words?, saying?, if_pos htext, List.map_map,
    hword, List.map_id]

/-- Settings are made of themselves. -/
theorem makes_unchecked {s : Settings} (h : s.delimiter.isTruthy = true) :
    s.unchecked.Makes s :=
  ⟨rfl, rfl, rfl, resourceTypes?_list_words s.resourceTypes, rfl,
    rfl, h, rfl, rfl⟩

theorem readOr_eq {α : Type} (read : Value → Except Failure α) (present : α)
    (given : Option Value) :
    readOr read present given = (given.map read).getD (.ok present) := by
  cases given with
  | none => rfl
  | some v => rfl

/-- A value that is put in is read in place of what stood there. -/
theorem PathSetting.path?_getD (x : PathSetting) (given : Option Value) :
    ((given.map PathSetting.value).getD x).path?
      = (given.map Settings.path?).getD x.path? := by
  cases given with
  | none => rfl
  | some v => rfl

theorem resourceTypes?_getD (v : Value) (given : Option Value) :
    resourceTypes? (given.getD v)
      = (given.map resourceTypes?).getD (resourceTypes? v) := by
  cases given with
  | none => rfl
  | some v => rfl

/-- What has been checked and read may be overridden as if it had not been. -/
theorem Unchecked.Makes.check?_replace {u : Unchecked} {s : Settings}
    (h : u.Makes s) (given : String → Option Value) :
    (u.replace given).check? = (s.unchecked.replace given).check? := by
  -- where nothing is put in, what has been read is read once more
  refine check?_congr ?_ ?_ ?_ ?_ ?_ ?_ ?_ ?_
  · rw [replace, replace, unchecked, h.key_eq]
  · rw [replace, replace, unchecked, h.name_eq]
  · rw [replace, replace, unchecked, h.description_eq]
  · rw [replace, replace, unchecked, resourceTypes?_getD, resourceTypes?_getD,
      h.resourceTypes_eq, resourceTypes?_list_words]
  · rw [replace, replace, unchecked, h.locale_eq]
  · rw [replace, replace, unchecked, h.delimiter_eq]
  · rw [replace, replace, unchecked, PathSetting.path?_getD,
      PathSetting.path?_getD, h.reportFile_eq]
    rfl
  · rw [replace, replace, unchecked, PathSetting.path?_getD,
      PathSetting.path?_getD, h.draftFile_eq]
    rfl

theorem resourceTypes?_replace (s : Settings) (given : String → Option Value) :
    resourceTypes? (s.unchecked.replace given).resourceTypes
      = readOr resourceTypes? s.resourceTypes (given resourceTypesName) := by
  rw [Unchecked.replace, unchecked, resourceTypes?_getD,
    resourceTypes?_list_words, readOr_eq]

theorem reportFile_replace (s : Settings) (given : String → Option Value) :
    (s.unchecked.replace given).reportFile.path?
      = readOr path? s.reportFile (given "report_path") := by
  rw [Unchecked.replace, unchecked, PathSetting.path?_getD, readOr_eq]
  rfl

theorem draftFile_replace (s : Settings) (given : String → Option Value) :
    (s.unchecked.replace given).draftFile.path?
      = readOr path? s.draftFile (given "draft_path") := by
  rw [Unchecked.replace, unchecked, PathSetting.path?_getD, readOr_eq]
  rfl

/-- Settings are overridden as if they were not checked. -/
theorem override?_unchecked (s : Settings) (o : Overrides) :
    s.unchecked.override? o = s.override? o := by
  rw [Unchecked.override?, Settings.override?]
  cases o.find? isRefused with
  | some x => rfl
  | none =>
    rw [Unchecked.check?, resourceTypes?_replace, reportFile_replace,
      draftFile_replace]
    rfl

/-! ## Overrides that are updated -/

theorem isRefused_eq_false {o : String × Value} (h : o.1 ∈ names) :
    isRefused o = false := by
  rw [isRefused, List.contains_iff_mem.mpr h]
  rfl

theorem Unchecked.override?_of_known {u : Unchecked} {o : Overrides}
    (h : ∀ x ∈ o, isRefused x = false) :
    u.override? o = (u.replace o.given?).check? := by
  have hnone : o.find? isRefused = none :=
    List.find?_eq_none.mpr fun x hx => Bool.eq_false_iff.mp (h x hx)
  rw [override?, hnone]

/-- Overrides that are accepted have no name that is refused. -/
theorem Unchecked.override?_eq_ok {u : Unchecked} {o : Overrides}
    {s : Settings} :
    u.override? o = .ok s
      ↔ (∀ x ∈ o, isRefused x = false) ∧ (u.replace o.given?).Makes s := by
  constructor
  · intro h
    have hknown : ∀ x ∈ o, isRefused x = false := by
      cases hfind : o.find? isRefused with
      | some x =>
        rw [override?, hfind] at h
        cases h
      | none =>
        exact fun x hx =>
          Bool.eq_false_iff.mpr (List.find?_eq_none.mp hfind x hx)
    rw [override?_of_known hknown] at h
    exact ⟨hknown, check?_eq_ok.mp h⟩
  · rintro ⟨hknown, hmakes⟩
    rw [override?_of_known hknown]
    exact check?_eq_ok.mpr hmakes

end Settings

namespace Overrides

/-- Overrides with the values put in that others give. -/
def updated (a b : Overrides) : Overrides :=
  (b.filter fun x => Settings.isGiven x.2).foldl
    (fun done x => Document.putMember x.1 x.2 done) a

theorem mem_updated {a b : Overrides} {x : String × Value}
    (h : x ∈ a.updated b) : x ∈ a ∨ x ∈ b := by
  have hfold : ∀ (given done : Overrides),
      x ∈ given.foldl (fun done x => Document.putMember x.1 x.2 done) done →
        x ∈ done ∨ x ∈ given := by
    intro given
    induction given with
    | nil => exact fun done hx => .inl hx
    | cons m rest ih =>
      intro done hx
      rcases ih _ hx with hx | hx
      · exact (Document.mem_putMember hx).imp_right fun heq =>
          List.mem_cons.mpr (.inl heq)
      · exact .inr (List.mem_cons_of_mem _ hx)
  exact (hfold _ a h).imp_right fun hx => (List.mem_filter.mp hx).1

theorem given?_cons (o : String × Value) (rest : Overrides) (name : String) :
    given? (o :: rest) name
      = if Settings.isGiven o.2 = true ∧ name = o.1 then some o.2
          else given? rest name := by
  rw [given?, List.filter_cons]
  by_cases hgiven : Settings.isGiven o.2 = true
  · rw [if_pos hgiven, List.lookup_cons]
    by_cases hname : name = o.1
    · rw [if_pos ⟨hgiven, hname⟩, beq_iff_eq.mpr hname]
    · rw [if_neg fun h => hname h.2, beq_eq_false_iff_ne.mpr hname]
      rfl
  · rw [if_neg hgiven, if_neg fun h => hgiven h.1]
    rfl

theorem given?_append (a b : Overrides) (name : String) :
    given? (a ++ b) name = (a.given? name).or (b.given? name) := by
  rw [given?, List.filter_append, List.lookup_append]
  rfl

/-- A value that is put in is given in place of what was given for its name. -/
theorem given?_putMember (key : String) {value : Value}
    (hvalue : Settings.isGiven value = true) (o : Overrides) (name : String) :
    given? (Document.putMember key value o) name = if name = key then some value
      else o.given? name := by
  induction o with
  | nil =>
    rw [Document.putMember, given?_cons]
    simp only [hvalue, true_and]
  | cons m rest ih =>
    obtain ⟨k, v⟩ := m
    rw [Document.putMember]
    by_cases hkey : k = key
    · rw [if_pos hkey, given?_cons, given?_cons, hkey]
      by_cases hname : name = key <;> simp [hname, hvalue]
    · rw [if_neg hkey, given?_cons, given?_cons, ih]
      by_cases hname : name = key
      · simp [hname, Ne.symm hkey]
      · simp [hname]

/-- Updated overrides give what the later ones give, and else what they gave. -/
theorem given?_updated (a : Overrides) {b : Overrides}
    (hb : (b.map Prod.fst).Nodup) (name : String) :
    (a.updated b).given? name = (b.given? name).or (a.given? name) := by
  have hfold : ∀ (given done : Overrides),
      (∀ x ∈ given, Settings.isGiven x.2 = true) →
      (given.map Prod.fst).Nodup →
      given? (given.foldl (fun done x => Document.putMember x.1 x.2 done)
        done) name
        = (given.lookup name).or (done.given? name) := by
    intro given
    induction given with
    | nil => exact fun done _ _ => rfl
    | cons m rest ih =>
      intro done hgiven hnodup
      obtain ⟨hm, hrest⟩ := List.forall_mem_cons.mp hgiven
      rw [List.map_cons, List.nodup_cons] at hnodup
      rw [List.foldl_cons, ih _ hrest hnodup.2, given?_putMember m.1 hm,
        List.lookup_cons]
      by_cases hname : name = m.1
      -- the name does not occur again, so nothing given later takes its place
      · have hnone : rest.lookup name = none := by
          refine List.lookup_eq_none_iff.mpr fun x hx =>
            bne_iff_ne.mpr fun heq => hnodup.1 ?_
          exact List.mem_map.mpr ⟨x, hx, heq.symm.trans hname⟩
        rw [if_pos hname, hnone, beq_iff_eq.mpr hname]
        rfl
      · rw [if_neg hname, beq_eq_false_iff_ne.mpr hname]
  refine hfold _ a (fun x hx => (List.mem_filter.mp hx).2) ?_
  exact hb.sublist (List.filter_sublist.map Prod.fst)

end Overrides

namespace Settings

/-- Overriding what has come out of overrides is overriding once, by updated
overrides: with the same settings or with the same failure. -/
theorem override?_override? {u : Unchecked} {a b : Overrides} {s : Settings}
    (h : u.override? a = .ok s) (hb : (b.map Prod.fst).Nodup)
    (hnames : ∀ x ∈ b, x.1 ∈ names) :
    s.override? b = u.override? (a.updated b) := by
  obtain ⟨hknown, hmakes⟩ := Unchecked.override?_eq_ok.mp h
  have hb' : ∀ x ∈ b, isRefused x = false :=
    fun x hx => isRefused_eq_false (hnames x hx)
  have hupdated : ∀ x ∈ a.updated b, isRefused x = false := fun x hx =>
    (Overrides.mem_updated hx).elim (hknown x) (hb' x)
  calc s.override? b = s.unchecked.override? b := (override?_unchecked s b).symm
    _ = (s.unchecked.replace b.given?).check? :=
      Unchecked.override?_of_known hb'
    _ = ((u.replace a.given?).replace b.given?).check? :=
      (hmakes.check?_replace b.given?).symm
    _ = (u.replace (a.updated b).given?).check? := by
      rw [Unchecked.replace_replace, funext (Overrides.given?_updated a hb)]
    _ = u.override? (a.updated b) :=
      (Unchecked.override?_of_known hupdated).symm

/-! ## What has come out of overrides -/

/-- The paths that stand in the settings are in normal form. -/
structure Unchecked.HasNormalPaths (u : Unchecked) : Prop where
  reportFile : u.reportFile.IsNormal
  draftFile : u.draftFile.IsNormal

theorem Unchecked.HasNormalPaths.replace {u : Unchecked} (h : u.HasNormalPaths)
    (given : String → Option Value) : (u.replace given).HasNormalPaths := by
  have hput : ∀ {x : PathSetting} (v : Option Value), x.IsNormal →
      ((v.map PathSetting.value).getD x).IsNormal := by
    intro x v hx
    cases v with
    | none => exact hx
    | some v => trivial
  exact ⟨hput _ h.reportFile, hput _ h.draftFile⟩

/-- Settings that are ready to be used, with resource types in words: the
delimiter is not empty, the output paths are in normal form, and no further
check changes them. -/
structure IsSettled (s : Settings) : Prop where
  isTruthy : s.delimiter.isTruthy = true
  reportFile : s.reportFile.IsNormal
  draftFile : s.draftFile.IsNormal
  override?_nil : s.override? [] = .ok s

theorem Unchecked.Makes.isSettled {u : Unchecked} {s : Settings} (h : u.Makes s)
    (hpaths : u.HasNormalPaths) :
    s.IsSettled := by
  have htruthy : s.delimiter.isTruthy = true := h.delimiter_eq ▸ h.isTruthy
  refine ⟨htruthy,
    PathSetting.isNormal_of_path? hpaths.reportFile h.reportFile_eq,
    PathSetting.isNormal_of_path? hpaths.draftFile h.draftFile_eq, ?_⟩
  rw [← override?_unchecked, Unchecked.override?_eq_ok]
  exact ⟨fun x hx => absurd hx List.not_mem_nil, makes_unchecked htruthy⟩

/-! ## The settings of a run -/

theorem hasNormalPaths_unchecked_usual : usual.unchecked.HasNormalPaths :=
  ⟨FilePath.isNormal_ofString _, FilePath.isNormal_ofString _⟩

/-- The overrides that a settings file gives, if there is one. An empty file
gives none. -/
inductive FileGives (order : SetOrder) (s : Store) : Option String →
  Overrides → Prop
  | noFile : FileGives order s none []
  | empty {file : String} {bytes : ByteArray}
      (hread : s.read (.ofString file) = .ok bytes)
      (hempty : Yaml.read? bytes = .ok none) : FileGives order s (some file) []
  | null {file : String} {bytes : ByteArray} {d : Yaml.NodeValues}
      (hread : s.read (.ofString file) = .ok bytes)
      (hvalues : Yaml.read? bytes = .ok (some d))
      (hentries : d.entries? d.root = none)
      (hnull : d.value order d.root = .null) : FileGives order s (some file) []
  | mapping {file : String} {bytes : ByteArray} {d : Yaml.NodeValues}
      {entries : List (Value × Yaml.NodeId)}
      {o : Overrides} (hread : s.read (.ofString file) = .ok bytes)
      (hvalues : Yaml.read? bytes = .ok (some d))
      (hentries : d.entries? d.root = some entries)
      (ho : overridesOf? order (.ofString file) d entries = .ok o) :
        FileGives order s (some file) o

theorem exists_fileGives_of_bytes {order : SetOrder} {s : Store} {file : String}
    {bytes : ByteArray} {settings : Settings}
    (hread : s.read (.ofString file) = .ok bytes)
    (h : ofBytes? order (.ofString file) bytes = .ok settings) :
    ∃ o, FileGives order s (some file) o
      ∧ usual.override? o = .ok settings := by
  unfold ofBytes? at h
  split at h
  · cases h
  · cases h
  · cases h
  · rename_i hempty
    cases h
    exact ⟨[], .empty hread hempty, rfl⟩
  · rename_i d hvalues
    unfold ofNodes? at h
    split at h
    · rename_i hentries
      obtain ⟨o, ho, hsettings⟩ := Outcome.bind_eq_ok.mp h
      exact ⟨o, .mapping hread hvalues hentries ho, hsettings⟩
    · rename_i hentries hnull
      cases h
      exact ⟨[], .null hread hvalues hentries hnull, rfl⟩
    · cases h

/-- The settings of a file are the usual ones with the overrides that it
gives. -/
theorem exists_fileGives_of_load {order : SetOrder} {s : Store}
    {file : Option String} {settings : Settings}
    (h : load order s file = .ok settings) :
    ∃ o, FileGives order s file o ∧ usual.override? o = .ok settings := by
  cases file with
  | none =>
    cases h
    exact ⟨[], .noFile, rfl⟩
  | some file =>
    simp only [load] at h
    split at h
    · cases h
    · cases h
    · rename_i hread
      exact exists_fileGives_of_bytes hread h
    · cases h

/-- Every setting is the value given for it, read in its own form, or else the
usual one. -/
structure IsMadeOf (given : String → Option Value) (s : Settings) : Prop where
  key_eq : s.key = (given "key").getD usual.key
  name_eq : s.name = (given "name").getD usual.name
  description_eq : s.description = (given "description").getD usual.description
  resourceTypes_eq :
    readOr resourceTypes? usual.resourceTypes (given resourceTypesName)
      = .ok s.resourceTypes
  locale_eq : s.locale = (given "locale").getD usual.locale
  delimiter_eq : s.delimiter = (given "delimiter").getD usual.delimiter
  reportFile_eq : readOr path? usual.reportFile (given "report_path")
    = .ok s.reportFile
  draftFile_eq : readOr path? usual.draftFile (given "draft_path")
    = .ok s.draftFile

theorem Unchecked.Makes.isMadeOf {given : String → Option Value} {s : Settings}
    (h : (usual.unchecked.replace given).Makes s) : s.IsMadeOf given where
  key_eq := h.key_eq
  name_eq := h.name_eq
  description_eq := h.description_eq
  resourceTypes_eq :=
    (resourceTypes?_replace usual given).symm.trans h.resourceTypes_eq
  locale_eq := h.locale_eq
  delimiter_eq := h.delimiter_eq
  reportFile_eq := (reportFile_replace usual given).symm.trans h.reportFile_eq
  draftFile_eq := (draftFile_replace usual given).symm.trans h.draftFile_eq

end Settings

namespace Command

/-- The value that a command line gives for a setting. -/
def lineValue (report draft key : Option Given) (name : String) :
    Option Value :=
  if name = "report_path" then report.map settingValue
  else if name = "draft_path" then draft.map settingValue
  else if name = "key" then key.map settingValue
  else none

/-- The overrides of a command line. -/
def lineOverrides (report draft key : Option Given) : Overrides :=
  override "report_path" report ++ override "draft_path" draft
    ++ override "key" key

theorem given?_override (name : String) (given : Option Given)
    (asked : String) :
    (override name given).given? asked
      = if asked = name then given.map settingValue else none := by
  cases given with
  | none =>
    rw [Option.map_none, ite_self]
    rfl
  | some g =>
    have hgiven : Settings.isGiven (settingValue g) = true := by cases g <;> rfl
    rw [override, Option.map_some, Option.toList_some, Overrides.given?_cons]
    simp only [hgiven, true_and, Option.map_some]
    rfl

theorem given?_lineOverrides (report draft key : Option Given) (name : String) :
    (lineOverrides report draft key).given? name
      = lineValue report draft key name := by
  rw [lineOverrides, Overrides.given?_append, Overrides.given?_append,
    given?_override, given?_override, given?_override]
  unfold lineValue
  by_cases hreport : name = "report_path"
  · simp [hreport]
  · by_cases hdraft : name = "draft_path"
    · simp [hdraft]
    · simp [hreport, hdraft]

/-- A line names each of its settings once. -/
theorem keys_lineOverrides_sublist (report draft key : Option Given) :
    List.Sublist ((lineOverrides report draft key).map Prod.fst) ["report_path",
      "draft_path", "key"] := by
  have hone : ∀ name (given : Option Given),
      List.Sublist ((override name given).map Prod.fst) [name] := by
    intro name given
    cases given with
    | none => exact List.nil_sublist _
    | some g => exact List.Sublist.refl _
  rw [lineOverrides, List.map_append, List.map_append]
  exact ((hone "report_path" report).append (hone "draft_path" draft)).append
    (hone "key" key)

theorem nodup_lineOverrides (report draft key : Option Given) :
    ((lineOverrides report draft key).map Prod.fst).Nodup :=
  List.Nodup.sublist (keys_lineOverrides_sublist report draft key) (by decide)

theorem mem_names_of_mem_lineOverrides {report draft key : Option Given}
    {x : String × Value} (h : x ∈ lineOverrides report draft key) :
    x.1 ∈ Settings.names := by
  have hmem :=
    (keys_lineOverrides_sublist report draft key).subset (List.mem_map_of_mem h)
  have hknown : ["report_path", "draft_path", "key"] ⊆ Settings.names :=
    by decide
  exact hknown hmem

theorem exists_sources_of_runSettings {order : SetOrder}
    {config report draft key : Option Given} {store : Store} {s : Settings}
    (h : runSettings order config report draft key store = .ok s) :
    ∃ file o, config = file.map Given.text
      ∧ Settings.FileGives order store file o
      ∧ s.IsMadeOf (fun name => (lineValue report draft key name).or
          (o.given? name)) ∧ s.IsSettled := by
  obtain ⟨settings, hfile, hline⟩ := Outcome.bind_eq_ok.mp h
  obtain ⟨file, hconfig, hload⟩ : ∃ file, config = file.map Given.text
      ∧ Settings.load order store file = .ok settings := by
    rcases config with _ | ⟨file⟩ | _
    · exact ⟨none, rfl, hfile⟩
    · exact ⟨some file, rfl, hfile⟩
    · cases hfile
  obtain ⟨o, hgives, hoverride⟩ := Settings.exists_fileGives_of_load hload
  rw [← Settings.override?_unchecked] at hoverride
  have hboth :=
    (Settings.override?_override? hoverride
      (nodup_lineOverrides report draft key) fun _ =>
        mem_names_of_mem_lineOverrides).symm.trans hline
  obtain ⟨_, hmakes⟩ := Settings.Unchecked.override?_eq_ok.mp hboth
  have hsettled :=
    hmakes.isSettled (Settings.hasNormalPaths_unchecked_usual.replace _)
  rw [funext
    (Overrides.given?_updated o (nodup_lineOverrides report draft key)),
    funext (given?_lineOverrides report draft key)] at hmakes
  exact ⟨file, o, hconfig, hgives, hmakes.isMadeOf, hsettled⟩

end Command

/-! ## Overrides compose -/

namespace Settings

/-- Overrides compose, whatever the values they give, and whatever stood in the
settings before. Settings that have come out of overrides are overridden further
as if both overrides had been one, updated by the values that the later ones
give, with the same outcome or the same failure. What comes out is settled. So a
setting of a run is the value of the line where there is one, be it empty, else
the value of the settings file in its own form, if that gives one, and else the
usual one. -/
theorem overrides_compose :
    (∀ (s : Settings) (o : Overrides), s.unchecked.override? o = s.override? o)
      ∧ (∀ (u : Unchecked) (a b : Overrides) (s : Settings),
          u.override? a = .ok s →
          (b.map Prod.fst).Nodup → (∀ x ∈ b, x.1 ∈ names) →
            s.override? b = u.override? (a.updated b))
      ∧ (∀ (u : Unchecked) (a : Overrides) (s : Settings),
          u.HasNormalPaths → u.override? a = .ok s → s.IsSettled)
      ∧ ∀ (order : SetOrder) (config report draft key : Option Command.Given)
          (store : Store) (s : Settings),
          Command.runSettings order config report draft key store = .ok s →
          ∃ file o, config = file.map Command.Given.text
            ∧ FileGives order store file o
            ∧ s.IsMadeOf (fun name =>
                (Command.lineValue report draft key name).or (o.given? name))
            ∧ s.IsSettled := by
  refine ⟨override?_unchecked,
    fun u a b s h hb hnames => override?_override? h hb hnames,
    fun u a s hpaths h => ?_, fun order config report draft key store s h => ?_⟩
  · obtain ⟨_, hmakes⟩ := Unchecked.override?_eq_ok.mp h
    exact hmakes.isSettled (hpaths.replace _)
  · exact Command.exists_sources_of_runSettings h

/-- Settings without a delimiter, with a text for resource types and a number
for a path. -/
def unusable : Unchecked :=
  { usual.unchecked with
    delimiter := .text "", resourceTypes := .text "x",
    reportFile := .value (.int 1) }

/-- Overrides for all three of them. -/
def repairs : Overrides :=
  [("delimiter", .int 5), ("key", .null),
    (resourceTypesName, .set [.bool true, .text "b"]),
    ("report_path", .text "r/./x.json")]

/-- A settings file with a key and a path. -/
def namedKey : Store :=
  ⟨[(["c.yaml"], .file "key: K\ndraft_path: d/\n".toUTF8)]⟩

/-- The settings can be used once they are overridden. Overridden again they
fail like the first settings with both overrides. An empty key on the line takes
the place of that in the file. -/
theorem overrides_of_unusable :
    ∃ s, unusable.override? repairs = .ok s ∧ s.IsSettled
      ∧ s.override? [("key", .text ""), ("name", .null)]
        = unusable.override?
            (repairs.updated [("key", .text ""), ("name", .null)])
      ∧ s.override? [("delimiter", .bool false)]
          = .error (.settings .emptyDelimiter)
      ∧ ∃ t, Command.runSettings .written (some (.text "c.yaml")) none none
          (some (.text "")) namedKey = .ok t
        ∧ t.key = .text "" ∧ t.IsSettled := by
  obtain ⟨_, hcompose, hsettled, hrun⟩ := overrides_compose
  have hpaths : unusable.HasNormalPaths :=
    ⟨trivial, FilePath.isNormal_ofString _⟩
  obtain ⟨s, hs⟩ : ∃ s, unusable.override? repairs = .ok s := ⟨_, rfl⟩
  obtain ⟨t, ht⟩ :
      ∃ t, Command.runSettings .written (some (.text "c.yaml")) none none
      (some (.text "")) namedKey = .ok t := by
    have hok :
        (Command.runSettings .written (some (.text "c.yaml")) none none
        (some (.text "")) namedKey).toOption.isSome
        = true := by
      decide +kernel
    cases hrun : Command.runSettings .written (some (.text "c.yaml")) none none
        (some (.text "")) namedKey with
    | error failure => simp [hrun, Except.toOption] at hok
    | ok t => exact ⟨t, rfl⟩
  obtain ⟨_, _, _, _, hmade, hsettled'⟩ := hrun _ _ _ _ _ _ _ ht
  refine ⟨s, hs, hsettled _ _ _ hpaths hs, ?_, ?_, t, ht,
    hmade.key_eq, hsettled'⟩
  · exact hcompose _ _ _ _ hs (by decide) (by decide)
  · exact hcompose _ _ _ _ hs (by decide) (by decide)

end Settings

end LeafSurvey
