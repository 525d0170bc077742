import LeafSurvey.Proofs.Completion
import LeafSurvey.Proofs.Evolution
import LeafSurvey.Proofs.Overriding

/-!
# Settings files that are refused

A settings file that cannot be used is refused with a fault of the settings,
which commands report. Some files escape that: loading them fails in a way that
is passed on. Here it is said which files these are, whatever their bytes.

* `exists_sorted?_iff`, `perm_of_sorted?`: which keys can be put in order for a
  message;
* `resourceTypes?_eq_error`, `path?_eq_error`: which values of settings are
  refused, and how;
* `override?_eq_error_iff`: how overrides of the usual settings fail, in the
  order of the checks;
* `overridesOf?_eq_error`: how a mapping fails for its keys;
* `escapes_or_settings`, `Escapes.ofBytes?_eq`: how the bytes of a file fail;
* `load_escapes_iff`: a file is loaded or refused with a fault of the settings,
  unless it is one of those that `Escapes` lists. Unknown keys are always
  refused, and reported if they can be put in order and into words.
-/

namespace LeafSurvey

namespace Value

/-! ## Keys in order -/

/-- Keys that can be put in order: at most one, or all of one class that has an
order. -/
def AreOrdered (keys : List Value) : Prop :=
  keys.length ≤ 1 ∨ ∃ cls, cls ≠ KeyClass.other ∧ ∀ k ∈ keys, k.keyClass = cls

theorem sorted?_eq_none_iff {keys : List Value} :
    sorted? keys = none ↔ ¬AreOrdered keys := by
  unfold AreOrdered
  match keys with
  | [] => simp [sorted?]
  | [key] => simp [sorted?]
  | first :: second :: rest =>
    have hshort : ¬(first :: second :: rest).length ≤ 1 := by simp
    rw [sorted?, ite_eq_right_iff]
    · simp only [hshort, false_or, List.all_eq_true, beq_iff_eq]
      constructor
      · rintro h ⟨cls, hcls, hall⟩
        obtain ⟨hfirst, hrest⟩ := List.forall_mem_cons.mp hall
        have hsome :=
          h ⟨hfirst ▸ hcls, fun k hk => (hrest k hk).trans hfirst.symm⟩
        cases hsome
      · rintro h ⟨hfirst, hrest⟩
        exact absurd ⟨first.keyClass, hfirst,
          List.forall_mem_cons.mpr ⟨rfl, hrest⟩⟩ h
    · exact List.cons_ne_nil second rest

theorem exists_sorted?_iff {keys : List Value} :
    (∃ sorted, sorted? keys = some sorted) ↔ AreOrdered keys := by
  rw [← Option.ne_none_iff_exists', ne_eq, sorted?_eq_none_iff, not_not]

theorem perm_of_sorted? {keys sorted : List Value}
    (h : sorted? keys = some sorted) : sorted.Perm keys := by
  unfold sorted? at h
  split at h
  · cases h
    exact .refl _
  · cases h
    exact .refl _
  · split at h
    · cases h
      exact List.mergeSort_perm _ _
    · cases h

/-! ## Values that list others -/

/-- What a value lists as resource types, unless it is a text: its items, its
octets as numbers, or its keys. -/
def listed? : Value → Option (List Value)
  | list items => some items
  | set items => some items
  | bytes octets => some (octets.map fun b => .int b.toNat)
  | map entries => some (entries.map (·.1))
  | _ => none

end Value

namespace Settings

/-! ## Values that are refused -/

theorem saying?_eq_error {α : Type} {say : Value → α} {vs : List Value}
    {failure : Failure} :
    saying? say vs = .error failure
      ↔ (∃ v ∈ vs, v.hasText = false) ∧ failure = .misuse .tooManyDigits := by
  unfold saying?
  split
  · rename_i hall
    rw [List.all_eq_true] at hall
    constructor
    · intro h
      cases h
    · rintro ⟨⟨v, hv, hlong⟩, _⟩
      rw [hall v hv] at hlong
      cases hlong
  · rename_i hnot
    have hlong : ∃ v ∈ vs, v.hasText = false := by simpa using hnot
    constructor
    · intro h
      cases h
      exact ⟨hlong, rfl⟩
    · rintro ⟨_, rfl⟩
      rfl

theorem saying?_eq_ok {α : Type} {say : Value → α} {vs : List Value}
    {said : List α} :
    saying? say vs = .ok said
      ↔ (∀ v ∈ vs, v.hasText = true) ∧ said = vs.map say := by
  rw [saying?, ← List.all_eq_true]
  split <;> simp_all [@eq_comm _ said]

/-- Resource types are refused as a text, as something that lists nothing, or
for a number without a text. -/
theorem resourceTypes?_eq_error {v : Value} {failure : Failure} :
    resourceTypes? v = .error failure
      ↔ v.isText = true ∧ failure = .settings .idsAreText
      ∨ v.isText = false ∧ v.listed? = none ∧ failure = .misuse .idsNotListed
      ∨ ∃ items, v.listed? = some items ∧ (∃ item ∈ items, item.hasText = false)
        ∧ failure = .misuse .tooManyDigits := by
  have hwords {items : List Value} : words? items = .error failure
      ↔ (∃ item ∈ items, item.hasText = false)
          ∧ failure = .misuse .tooManyDigits :=
    saying?_eq_error
  cases v <;> simp [resourceTypes?, Value.isText, Value.listed?, hwords,
    @eq_comm _ failure]

theorem path?_eq_error {v : Value} {failure : Failure} :
    path? v = .error failure
      ↔ v.isText = false ∧ failure = .misuse .pathNotText := by
  cases v <;> simp [path?, Value.isText, @eq_comm _ failure]

theorem readOr_eq_error {α : Type} {read : Value → Except Failure α}
    {present : α} {given : Option Value} {failure : Failure} :
    readOr read present given = .error failure
      ↔ ∃ v, given = some v ∧ read v = .error failure := by
  cases given with
  | none => simp [readOr]
  | some v => simp [readOr]

/-! ## Values that are accepted -/

/-- Resource types that are accepted are the words for what is listed. -/
theorem resourceTypes?_eq_ok {v : Value} {ids : List Value.Word} :
    resourceTypes? v = .ok ids
      ↔ ∃ items, v.listed? = some items ∧ (∀ item ∈ items, item.hasText = true)
        ∧ ids = items.map Value.word := by
  have hwords {items : List Value} : words? items = .ok ids
      ↔ (∀ item ∈ items, item.hasText = true) ∧ ids = items.map Value.word :=
    saying?_eq_ok
  cases v <;> simp [resourceTypes?, Value.listed?, hwords]

theorem exists_resourceTypes_iff {v : Value} :
    (∃ ids, resourceTypes? v = .ok ids)
      ↔ ∃ items, v.listed? = some items
          ∧ ∀ item ∈ items, item.hasText = true := by
  constructor
  · rintro ⟨ids, h⟩
    obtain ⟨items, hitems, htext, _⟩ := resourceTypes?_eq_ok.mp h
    exact ⟨items, hitems, htext⟩
  · rintro ⟨items, hitems, htext⟩
    exact ⟨_, resourceTypes?_eq_ok.mpr ⟨items, hitems, htext, rfl⟩⟩

theorem exists_path_iff {v : Value} :
    (∃ p, path? v = .ok p) ↔ v.isText = true := by
  cases v <;> simp [path?, Value.isText]

theorem exists_readOr_iff {α : Type} {read : Value → Except Failure α}
    {present : α} {given : Option Value} :
    (∃ a, readOr read present given = .ok a)
      ↔ ∀ v, given = some v → ∃ a, read v = .ok a := by
  cases given with
  | none => simp [readOr]
  | some v => simp [readOr]

end Settings

/-! ## Overrides that are refused -/

namespace Overrides

/-- No empty delimiter is given. -/
def HasDelimiter (o : Overrides) : Prop :=
  ∀ v, o.given? "delimiter" = some v → v.isTruthy = true

/-- The resource types, where they are given, are listed and have texts. -/
def HasResourceTypes (o : Overrides) : Prop :=
  ∀ v, o.given? Settings.resourceTypesName = some v →
    ∃ items, v.listed? = some items ∧ ∀ item ∈ items, item.hasText = true

/-- An output path, where it is given, is a text. -/
def HasPath (o : Overrides) (name : String) : Prop :=
  ∀ v, o.given? name = some v → v.isText = true

/-- How overrides fail. Each check comes after the ones before it. -/
inductive FailsBy (o : Overrides) : Failure → Prop
  | emptyDelimiter {v : Value} (hv : o.given? "delimiter" = some v)
      (hempty : v.isTruthy = false) :
      FailsBy o (.settings .emptyDelimiter)
  | idsAreText {v : Value} (hdelimiter : o.HasDelimiter)
      (hv : o.given? Settings.resourceTypesName = some v)
      (htext : v.isText = true) :
      FailsBy o (.settings .idsAreText)
  | idsNotListed {v : Value} (hdelimiter : o.HasDelimiter)
      (hv : o.given? Settings.resourceTypesName = some v)
      (htext : v.isText = false)
      (hlisted : v.listed? = none) : FailsBy o (.misuse .idsNotListed)
  | longId {v item : Value} {items : List Value} (hdelimiter : o.HasDelimiter)
      (hv : o.given? Settings.resourceTypesName = some v)
      (hlisted : v.listed? = some items)
      (hitem : item ∈ items) (hlong : item.hasText = false) :
        FailsBy o (.misuse .tooManyDigits)
  | reportPath {v : Value} (hdelimiter : o.HasDelimiter)
      (hids : o.HasResourceTypes)
      (hv : o.given? "report_path" = some v) (htext : v.isText = false) :
        FailsBy o (.misuse .pathNotText)
  | draftPath {v : Value} (hdelimiter : o.HasDelimiter)
      (hids : o.HasResourceTypes)
      (hreport : o.HasPath "report_path") (hv : o.given? "draft_path" = some v)
      (htext : v.isText = false) :
      FailsBy o (.misuse .pathNotText)

end Overrides

namespace Settings

/-- A check fails at the first thing that is wrong. -/
theorem Unchecked.check?_eq_error {u : Unchecked} {failure : Failure} :
    u.check? = .error failure
      ↔ u.delimiter.isTruthy = false ∧ failure = .settings .emptyDelimiter
        ∨ u.delimiter.isTruthy = true
            ∧ (resourceTypes? u.resourceTypes = .error failure
          ∨ ∃ ids, resourceTypes? u.resourceTypes = .ok ids
              ∧ (u.reportFile.path? = .error failure
            ∨ ∃ p, u.reportFile.path? = .ok p
                ∧ u.draftFile.path? = .error failure)) := by
  cases htruthy : u.delimiter.isTruthy with
  | false =>
    rw [check?, htruthy]
    constructor
    · intro h
      cases h
      exact .inl ⟨rfl, rfl⟩
    · rintro (⟨_, rfl⟩ | ⟨h, _⟩)
      · rfl
      · cases h
  | true =>
    have hchecks : u.check? = (do
        let ids ← resourceTypes? u.resourceTypes
        let reportFile ← u.reportFile.path?
        let draftFile ← u.draftFile.path?
        return {
          key := u.key
          name := u.name
          description := u.description
          resourceTypes := ids
          locale := u.locale
          delimiter := u.delimiter
          reportFile := reportFile
          draftFile := draftFile }) := by
      rw [check?, htruthy]
      rfl
    rw [hchecks, Outcome.bind_eq_error]
    simp only [Outcome.bind_eq_error, pure, Except.pure, reduceCtorEq,
      and_false, exists_false, or_false, false_and, false_or, true_and]

/-- Overrides of the usual settings that use known names fail as `FailsBy` says,
and not otherwise. -/
theorem override?_eq_error_iff {o : Overrides} (hnames : ∀ x ∈ o, x.1 ∈ names)
    {failure : Failure} :
    usual.override? o = .error failure ↔ o.FailsBy failure := by
  rw [← override?_unchecked,
    Unchecked.override?_of_known fun x hx => isRefused_eq_false (hnames x hx),
    Unchecked.check?_eq_error, resourceTypes?_replace, reportFile_replace,
    draftFile_replace]
  have htruthy : (usual.unchecked.replace o.given?).delimiter.isTruthy = true
      ↔ o.HasDelimiter := by
    rw [Unchecked.replace, Overrides.HasDelimiter]
    cases o.given? "delimiter" with
    | none => simp [usual, usualDelimiter, unchecked, Value.isTruthy]
    | some v => simp
  have hempty : (usual.unchecked.replace o.given?).delimiter.isTruthy = false
      ↔ ∃ v, o.given? "delimiter" = some v ∧ v.isTruthy = false := by
    rw [← Bool.not_eq_true, htruthy, Overrides.HasDelimiter]
    simp
  have hids : (∃ ids,
      readOr resourceTypes? usual.resourceTypes (o.given? resourceTypesName)
      = .ok ids)
      ↔ o.HasResourceTypes := by
    simp only [exists_readOr_iff, exists_resourceTypes_iff,
      Overrides.HasResourceTypes]
  have hpath (present : FilePath) (name : String) :
      (∃ p, readOr path? present (o.given? name) = .ok p) ↔ o.HasPath name := by
    simp only [exists_readOr_iff, exists_path_iff, Overrides.HasPath]
  simp only [readOr_eq_error, exists_and_right, htruthy, hempty, hids, hpath]
  constructor
  · rintro (⟨⟨v, hv, hfalse⟩, rfl⟩ | ⟨hdelimiter,
      ⟨v, hv, hfail⟩ | ⟨hids, ⟨v, hv, hfail⟩ | ⟨hreport, v, hv, hfail⟩⟩⟩)
    · exact .emptyDelimiter hv hfalse
    · rcases resourceTypes?_eq_error.mp hfail with
        ⟨htext, rfl⟩ | ⟨htext, hlisted, rfl⟩
        | ⟨items, hlisted, ⟨item, hitem, hlong⟩, rfl⟩
      · exact .idsAreText hdelimiter hv htext
      · exact .idsNotListed hdelimiter hv htext hlisted
      · exact .longId hdelimiter hv hlisted hitem hlong
    · obtain ⟨htext, rfl⟩ := path?_eq_error.mp hfail
      exact .reportPath hdelimiter hids hv htext
    · obtain ⟨htext, rfl⟩ := path?_eq_error.mp hfail
      exact .draftPath hdelimiter hids hreport hv htext
  · intro h
    cases h with
    | emptyDelimiter hv hfalse => exact .inl ⟨⟨_, hv, hfalse⟩, rfl⟩
    | idsAreText hdelimiter hv htext =>
      exact .inr ⟨hdelimiter,
        .inl ⟨_, hv, resourceTypes?_eq_error.mpr (.inl ⟨htext, rfl⟩)⟩⟩
    | idsNotListed hdelimiter hv htext hlisted =>
      exact .inr ⟨hdelimiter,
        .inl ⟨_, hv,
        resourceTypes?_eq_error.mpr (.inr (.inl ⟨htext, hlisted, rfl⟩))⟩⟩
    | longId hdelimiter hv hlisted hitem hlong =>
      exact .inr ⟨hdelimiter,
        .inl ⟨_, hv,
        resourceTypes?_eq_error.mpr
        (.inr (.inr ⟨_, hlisted, ⟨_, hitem, hlong⟩, rfl⟩))⟩⟩
    | reportPath hdelimiter hids hv htext =>
      exact .inr ⟨hdelimiter,
        .inr ⟨hids, .inl ⟨_, hv, path?_eq_error.mpr ⟨htext, rfl⟩⟩⟩⟩
    | draftPath hdelimiter hids hreport hv htext =>
      exact .inr ⟨hdelimiter,
        .inr ⟨hids, .inr ⟨hreport, _, hv, path?_eq_error.mpr ⟨htext, rfl⟩⟩⟩⟩

/-! ## Files -/

/-- The keys of a mapping that name no setting. -/
def unknownKeys (entries : List (Value × Yaml.NodeId)) : List Value :=
  (entries.map (·.1)).filter fun k => (settingName? k).isNone

/-- The overrides that the entries of a mapping make. -/
def overridesIn (order : SetOrder) (d : Yaml.NodeValues)
    (entries : List (Value × Yaml.NodeId)) : Overrides :=
  entries.filterMap fun e => (settingName? e.1).map fun s =>
    (s, valueAt order d s e.2)

theorem mem_names_of_mem_overridesIn {d : Yaml.NodeValues}
    {entries : List (Value × Yaml.NodeId)} {x : String × Value}
    (h : x ∈ overridesIn order d entries) : x.1 ∈ names := by
  obtain ⟨e, _, he⟩ := List.mem_filterMap.mp h
  obtain ⟨name, hname, rfl⟩ := Option.map_eq_some_iff.mp he
  unfold settingName? at hname
  split at hname
  · rename_i text _
    by_cases hknown : names.contains text = true
    · rw [if_pos hknown] at hname
      cases hname
      exact List.contains_iff_mem.mp hknown
    · rw [if_neg hknown] at hname
      cases hname
  · cases hname

/-- The bytes of a file write a mapping with some entries. -/
structure WritesMapping (bytes : ByteArray) (d : Yaml.NodeValues)
    (entries : List (Value × Yaml.NodeId)) :
    Prop where
  values : Yaml.read? bytes = .ok (some d)
  entries : d.entries? d.root = some entries

/-- How loading a file fails other than with a fault of the settings. The text
of the file is not UTF-8, or writes a value that does not exist; keys that name
no setting have no order or no text; or the values of settings are refused
without a fault. -/
inductive Escapes (order : SetOrder) (bytes : ByteArray) : Failure → Prop
  | encoding (h : Yaml.read? bytes = .error .encoding) :
      Escapes order bytes .settingsEncoding
  | value {fault : Yaml.ValueFault}
      (h : Yaml.read? bytes = .error (.value fault)) :
      Escapes order bytes (.settingsValue fault)
  | unorderedKeys {d : Yaml.NodeValues} {entries : List (Value × Yaml.NodeId)}
      (h : WritesMapping bytes d entries)
      (hkeys : ¬Value.AreOrdered (unknownKeys entries)) :
      Escapes order bytes (.misuse .unorderedKeys)
  | longKey {d : Yaml.NodeValues} {entries : List (Value × Yaml.NodeId)}
      {k : Value}
      (h : WritesMapping bytes d entries)
      (hkeys : Value.AreOrdered (unknownKeys entries))
      (hk : k ∈ unknownKeys entries) (hlong : k.hasText = false) :
        Escapes order bytes (.misuse .tooManyDigits)
  | overrides {d : Yaml.NodeValues} {entries : List (Value × Yaml.NodeId)}
      {cause : Misuse}
      (h : WritesMapping bytes d entries) (hknown : unknownKeys entries = [])
      (hfails : (overridesIn order d entries).FailsBy (.misuse cause)) :
        Escapes order bytes (.misuse cause)

theorem load_of_read {s : Store} {given : String} {bytes : ByteArray}
    (hread : s.read (.ofString given) = .ok bytes) :
    load order s (some given) = ofBytes? order (.ofString given) bytes := by
  obtain ⟨q, hq, hfile⟩ := Store.read_eq_ok.mp hread
  simp only [load, Store.find?, hq, hfile, hread]

/-- A mapping makes overrides of the usual settings, or is refused for its
keys. -/
theorem ofBytes?_of_mapping {file : FilePath} {bytes : ByteArray}
    {d : Yaml.NodeValues} {entries : List (Value × Yaml.NodeId)}
    (h : WritesMapping bytes d entries) :
    ofBytes? order file bytes
      = (overridesOf? order file d entries >>= fun o => usual.override? o) := by
  unfold ofBytes?
  simp only [h.values]
  unfold ofNodes?
  simp only [h.entries]

/-- Unknown keys are what a mapping is refused for, if they can be put in order
and into words. -/
theorem overridesOf?_of_unknown {file : FilePath} {d : Yaml.NodeValues}
    {entries : List (Value × Yaml.NodeId)}
    (hunknown : unknownKeys entries ≠ []) :
    overridesOf? order file d entries
      = match Value.sorted? (unknownKeys entries) with
        | some keys =>
          do throw (.settings (.unknownKeys file (← saying? Value.plain keys)))
        | none => .error (.misuse .unorderedKeys) := by
  unfold overridesOf?
  split
  · rename_i hnone
    exact absurd hnone hunknown
  · rfl

/-- Without unknown keys a mapping is not refused for its keys. -/
theorem overridesOf?_of_known {file : FilePath} {d : Yaml.NodeValues}
    {entries : List (Value × Yaml.NodeId)} (hknown : unknownKeys entries = []) :
    overridesOf? order file d entries = .ok (overridesIn order d entries) := by
  unfold overridesOf?
  split
  · rfl
  · rename_i hunknown
    exact absurd hknown hunknown

theorem overridesOf?_eq_ok {file : FilePath} {d : Yaml.NodeValues}
    {entries : List (Value × Yaml.NodeId)} {o : Overrides} :
    overridesOf? order file d entries = .ok o
      ↔ unknownKeys entries = [] ∧ o = overridesIn order d entries := by
  by_cases hknown : unknownKeys entries = []
  · simp [overridesOf?_of_known hknown, hknown, @eq_comm _ o]
  · rw [overridesOf?_of_unknown hknown]
    constructor
    · intro h
      split at h
      · obtain ⟨_, -, hthrow⟩ := Outcome.bind_eq_ok.mp h
        cases hthrow
      · cases h
    · exact fun h => absurd h.1 hknown

/-- A mapping is refused for its keys if some of them are unknown, and for their
order, their texts, or themselves. -/
theorem overridesOf?_eq_error {file : FilePath} {d : Yaml.NodeValues}
    {entries : List (Value × Yaml.NodeId)} {failure : Failure} :
    overridesOf? order file d entries = .error failure
      ↔ unknownKeys entries ≠ [] ∧
      (¬Value.AreOrdered (unknownKeys entries)
        ∧ failure = .misuse .unorderedKeys
        ∨ ∃ keys, Value.sorted? (unknownKeys entries) = some keys
          ∧ ((∃ k ∈ unknownKeys entries, k.hasText = false)
              ∧ failure = .misuse .tooManyDigits
            ∨ (∀ k ∈ unknownKeys entries, k.hasText = true)
              ∧ failure = .settings
                  (.unknownKeys file (keys.map Value.plain)))) := by
  by_cases hknown : unknownKeys entries = []
  · simp [overridesOf?_of_known hknown, hknown]
  · rw [overridesOf?_of_unknown hknown, ← Value.sorted?_eq_none_iff]
    cases hsorted : Value.sorted? (unknownKeys entries) with
    | none => simp [hknown, @eq_comm _ failure]
    | some keys =>
      have hmem (k : Value) : k ∈ keys
          ↔ k ∈ unknownKeys entries :=
        (Value.perm_of_sorted? hsorted).mem_iff
      have hwords :
          (do throw (.settings
          (.unknownKeys file (← saying? Value.plain keys))) :
          Except Failure Overrides)
          = .error failure ↔ saying? Value.plain keys = .error failure
            ∨ ∃ texts, saying? Value.plain keys = .ok texts
                ∧ failure = .settings (.unknownKeys file texts) := by
        simp only [Outcome.bind_eq_error, throw, throwThe, MonadExceptOf.throw,
          Except.error.injEq, @eq_comm _ failure]
      simp only [hwords, saying?_eq_error, saying?_eq_ok, hmem, ne_eq, hknown,
        not_false_eq_true, true_and, reduceCtorEq, false_and, false_or,
        Option.some.injEq, exists_eq_left']
      simp only [and_assoc, exists_and_left, exists_eq_left]

/-- A mapping fails for its keys, or makes overrides that fail. -/
theorem ofBytes?_eq_error_of_mapping {file : FilePath} {bytes : ByteArray}
    {d : Yaml.NodeValues} {entries : List (Value × Yaml.NodeId)}
    (h : WritesMapping bytes d entries) {failure : Failure} :
    ofBytes? order file bytes = .error failure
      ↔ overridesOf? order file d entries = .error failure
      ∨ unknownKeys entries = []
          ∧ (overridesIn order d entries).FailsBy failure := by
  rw [ofBytes?_of_mapping h, Outcome.bind_eq_error]
  have hoverride : usual.override? (overridesIn order d entries)
      = .error failure
      ↔ (overridesIn order d entries).FailsBy failure :=
    override?_eq_error_iff fun x => mem_names_of_mem_overridesIn
  simp only [overridesOf?_eq_ok, and_assoc, exists_and_left,
    exists_eq_left, hoverride]

/-- What is no mapping is refused with a fault of the settings, if it is
refused. -/
theorem ofNodes?_eq_error_of_no_entries {file : FilePath} {d : Yaml.NodeValues}
    {failure : Failure} (hentries : d.entries? d.root = none)
    (h : ofNodes? order file d = .error failure) :
    ∃ fault, failure = .settings fault := by
  unfold ofNodes? at h
  simp only [hentries] at h
  cases hvalue : d.value order d.root with
  | null =>
    rw [hvalue] at h
    cases h
  | _ =>
    rw [hvalue] at h
    cases h
    exact ⟨_, rfl⟩

/-- A mapping that fails is refused with a fault of the settings or escapes. -/
theorem escapes_or_settings_of_mapping {file : FilePath} {bytes : ByteArray}
    {d : Yaml.NodeValues} {entries : List (Value × Yaml.NodeId)}
    {failure : Failure} (h : WritesMapping bytes d entries)
    (hload : ofBytes? order file bytes = .error failure) :
    Escapes order bytes failure ∨ ∃ fault, failure = .settings fault := by
  rcases (ofBytes?_eq_error_of_mapping h).mp hload with hkeys | ⟨hknown, hfails⟩
  · rcases overridesOf?_eq_error.mp hkeys with
      ⟨_, ⟨hunordered, rfl⟩ | ⟨keys, hsorted, hwords⟩⟩
    · exact .inl (.unorderedKeys h hunordered)
    · have hordered := Value.exists_sorted?_iff.mp ⟨keys, hsorted⟩
      rcases hwords with ⟨⟨k, hk, hlong⟩, rfl⟩ | ⟨_, rfl⟩
      · exact .inl (.longKey h hordered hk hlong)
      · exact .inr ⟨_, rfl⟩
  · cases failure with
    | settings fault => exact .inr ⟨fault, rfl⟩
    | misuse cause => exact .inl (.overrides h hknown hfails)
    | _ => cases hfails

/-- So is every file that fails. -/
theorem escapes_or_settings {file : FilePath} {bytes : ByteArray}
    {failure : Failure} (hload : ofBytes? order file bytes = .error failure) :
    Escapes order bytes failure ∨ ∃ fault, failure = .settings fault := by
  have h := hload
  unfold ofBytes? at h
  split at h
  · cases h
    exact .inr ⟨_, rfl⟩
  · rename_i fault hread
    cases h
    exact .inl (.value hread)
  · rename_i hread
    cases h
    exact .inl (.encoding hread)
  · cases h
  · rename_i d hread
    cases hentries : d.entries? d.root with
    | none => exact .inr (ofNodes?_eq_error_of_no_entries hentries h)
    | some entries =>
      exact escapes_or_settings_of_mapping ⟨hread, hentries⟩ hload

/-- What escapes is how loading fails. -/
theorem Escapes.ofBytes?_eq {bytes : ByteArray} {failure : Failure}
    (h : Escapes order bytes failure) (file : FilePath) :
    ofBytes? order file bytes = .error failure := by
  cases h with
  | encoding hread =>
    unfold ofBytes?
    simp only [hread]
  | value hread =>
    unfold ofBytes?
    simp only [hread]
  | @unorderedKeys d entries hmapping hunordered =>
    have hkeys : unknownKeys entries ≠ [] := fun hnone =>
      hunordered (by rw [hnone]; exact .inl (Nat.zero_le 1))
    have hfails : overridesOf? order file d entries
        = .error (.misuse .unorderedKeys) :=
      overridesOf?_eq_error.mpr ⟨hkeys, .inl ⟨hunordered, rfl⟩⟩
    exact (ofBytes?_eq_error_of_mapping hmapping).mpr (.inl hfails)
  | @longKey d entries k hmapping hordered hk hlong =>
    obtain ⟨keys, hsorted⟩ := Value.exists_sorted?_iff.mpr hordered
    have hfails : overridesOf? order file d entries
        = .error (.misuse .tooManyDigits) :=
      overridesOf?_eq_error.mpr ⟨List.ne_nil_of_mem hk,
        .inr ⟨keys, hsorted, .inl ⟨⟨k, hk, hlong⟩, rfl⟩⟩⟩
    exact (ofBytes?_eq_error_of_mapping hmapping).mpr (.inl hfails)
  | overrides hmapping hknown hfails =>
    exact (ofBytes?_eq_error_of_mapping hmapping).mpr (.inr ⟨hknown, hfails⟩)

theorem Escapes.ne_settings {bytes : ByteArray} {failure : Failure}
    (h : Escapes order bytes failure) (fault : SettingsFault) :
    failure ≠ .settings fault := by
  cases h <;> exact nofun

/-- What is refused for its unknown keys is refused with all of them, in some
order. -/
theorem overridesOf?_unknownKeys_iff {file : FilePath} {d : Yaml.NodeValues}
    {entries : List (Value × Yaml.NodeId)}
    (hunknown : unknownKeys entries ≠ []) :
    (∃ keys : List Value, keys.Perm (unknownKeys entries)
        ∧ overridesOf? order file d entries
            = .error (.settings (.unknownKeys file (keys.map Value.plain))))
      ↔ Value.AreOrdered (unknownKeys entries)
          ∧ ∀ k ∈ unknownKeys entries, k.hasText = true := by
  simp only [overridesOf?_eq_error, reduceCtorEq, and_false, false_or,
    Failure.settings.injEq, SettingsFault.unknownKeys.injEq, true_and]
  constructor
  · rintro ⟨keys, -, -, sorted, hsorted, htexts, -⟩
    exact ⟨Value.exists_sorted?_iff.mp ⟨sorted, hsorted⟩, htexts⟩
  · rintro ⟨hordered, htexts⟩
    obtain ⟨keys, hsorted⟩ := Value.exists_sorted?_iff.mpr hordered
    exact ⟨keys, Value.perm_of_sorted? hsorted, hunknown, keys,
      hsorted, htexts, rfl⟩

/-- A settings file is loaded or refused with a fault of the settings, unless it
is one of those that escape. A mapping with unknown keys is never loaded, and it
is refused with these keys if they can be put in order and into words, and not
otherwise. -/
theorem load_escapes_iff {s : Store} {given : String} {bytes : ByteArray}
    (hread : s.read (.ofString given) = .ok bytes) :
    (((∃ settings, load order s (some given) = .ok settings)
          ∨ ∃ fault, load order s (some given) = .error (.settings fault))
        ↔ ∀ failure, ¬Escapes order bytes failure)
      ∧ (∀ failure, Escapes order bytes failure →
          load order s (some given) = .error failure)
      ∧ ∀ d entries, WritesMapping bytes d entries → unknownKeys entries ≠ [] →
        (∀ settings, load order s (some given) ≠ .ok settings)
          ∧ ((∃ keys : List Value, keys.Perm (unknownKeys entries)
                ∧ load order s (some given) = .error (.settings
                    (.unknownKeys (.ofString given) (keys.map Value.plain))))
              ↔ Value.AreOrdered (unknownKeys entries)
                  ∧ ∀ k ∈ unknownKeys entries, k.hasText = true) := by
  rw [load_of_read hread]
  refine ⟨?_, fun failure h => h.ofBytes?_eq _, ?_⟩
  · constructor
    · rintro (⟨settings, hload⟩ | ⟨fault, hload⟩) failure hescapes
      · cases (hescapes.ofBytes?_eq _).symm.trans hload
      · cases (hescapes.ofBytes?_eq _).symm.trans hload
        exact hescapes.ne_settings fault rfl
    · intro hnone
      cases hload : ofBytes? order (.ofString given) bytes with
      | ok settings => exact .inl ⟨settings, rfl⟩
      | error failure =>
        obtain ⟨fault, rfl⟩ :=
          (escapes_or_settings hload).resolve_left (hnone failure)
        exact .inr ⟨fault, rfl⟩
  · intro d entries hmapping hunknown
    constructor
    · intro settings hload
      rw [ofBytes?_of_mapping hmapping] at hload
      obtain ⟨o, ho, -⟩ := Outcome.bind_eq_ok.mp hload
      exact hunknown (overridesOf?_eq_ok.mp ho).1
    · simp only [ofBytes?_eq_error_of_mapping hmapping, hunknown,
        false_and, or_false]
      exact overridesOf?_unknownKeys_iff hunknown

/-! ## Two files with unknown keys -/

/-- One file has a text and a number as keys, and one has two texts. -/
def strangeKeys : Store :=
  ⟨[(["mixed.yaml"], .file "a: 1\n5: 1\n".toUTF8),
    (["texts.yaml"], .file "b: 1\na: 1\n".toUTF8)]⟩

/-- Loading the file with a text and a number as keys neither succeeds nor fails
with a fault of the settings. -/
theorem mixed_keys_escape :
    ¬((∃ settings, load .written strangeKeys (some "mixed.yaml") = .ok settings)
      ∨ ∃ fault, load .written strangeKeys (some "mixed.yaml")
          = .error (.settings fault)) := by
  have hload : (match load .written strangeKeys (some "mixed.yaml") with
      | .error (.misuse .unorderedKeys) => true
      | _ => false) = true := by
    decide +kernel
  rintro (⟨settings, h⟩ | ⟨fault, h⟩)
  · rw [h] at hload
    cases hload
  · rw [h] at hload
    cases hload

/-- Finds the unknown keys that bytes write by running the reader and a test. -/
theorem exists_writesMapping (bytes : ByteArray) (test : List Value → Bool)
    (h : (match Yaml.read? bytes with
      | .ok (some d) => ((d.entries? d.root).map unknownKeys).any test
      | _ => false) = true) :
    ∃ d entries, WritesMapping bytes d entries
      ∧ test (unknownKeys entries) = true := by
  split at h
  · rename_i d hread
    obtain ⟨keys, hkeys, htest⟩ := (Option.any_eq_true _ _).mp h
    obtain ⟨entries, hentries, rfl⟩ := Option.map_eq_some_iff.mp hkeys
    exact ⟨d, entries, ⟨hread, hentries⟩, htest⟩
  · cases h

/-- The file with a text and a number as keys escapes, and the one with two
texts is refused with both. -/
theorem load_strangeKeys :
    load .written strangeKeys (some "mixed.yaml")
      = .error (.misuse .unorderedKeys)
      ∧ ∃ keys : List String, keys.Perm ["b", "a"]
        ∧ load .written strangeKeys (some "texts.yaml")
          = .error
              (.settings (.unknownKeys (.ofString "texts.yaml") keys)) := by
  constructor
  · obtain ⟨d, entries, hmapping, htest⟩ :=
      exists_writesMapping "a: 1\n5: 1\n".toUTF8
        (fun keys => decide (keys.map Value.keyClass = [.text, .number]))
        (by decide +kernel)
    have hclasses : (unknownKeys entries).map Value.keyClass
        = [.text, .number] :=
      of_decide_eq_true htest
    have hread : strangeKeys.read (.ofString "mixed.yaml")
        = .ok "a: 1\n5: 1\n".toUTF8 := by decide +kernel
    have hunordered : ¬Value.AreOrdered (unknownKeys entries) := by
      rintro (hshort | ⟨cls, -, hall⟩)
      · rw [← List.length_map Value.keyClass, hclasses] at hshort
        simp at hshort
      · rw [← List.forall_mem_map (P := fun c => c = cls), hclasses] at hall
        have htext := hall .text (by simp)
        have hnumber := hall .number (by simp)
        cases htext.trans hnumber.symm
    exact (load_escapes_iff hread).2.1 _ (.unorderedKeys hmapping hunordered)
  · obtain ⟨d, entries, hmapping, htest⟩ :=
      exists_writesMapping "b: 1\na: 1\n".toUTF8
        (fun keys => keys.all (fun k => decide (k.keyClass = .text))
        && keys.all Value.hasText && decide (keys.map Value.plain = ["b", "a"]))
        (by decide +kernel)
    simp only [Bool.and_eq_true, List.all_eq_true, decide_eq_true_eq] at htest
    obtain ⟨⟨hclasses, htexts⟩, hwords⟩ := htest
    have hread : strangeKeys.read (.ofString "texts.yaml")
        = .ok "b: 1\na: 1\n".toUTF8 := by decide +kernel
    have hunknown : unknownKeys entries ≠ [] := by
      intro hnone
      rw [hnone] at hwords
      cases hwords
    obtain ⟨keys, hperm, hload⟩ :=
      ((load_escapes_iff hread).2.2 d entries hmapping hunknown).2.mpr
        ⟨.inr ⟨.text, nofun, hclasses⟩, htexts⟩
    exact ⟨keys.map Value.plain, hwords ▸ hperm.map Value.plain, hload⟩

end Settings

end LeafSurvey
