import LeafSurvey.Proofs.SettingsFaults
import LeafSurvey.Proofs.Usability

/-!
# Sets in another order

Another process may go through sets in another order, so a settings file can
make other settings there. They are the same but for the items of sets: a value
is `Resorted`. What can be written down holds no set, and so the only setting
that tells the orders apart in a draft that can be written is the list of
resource types.

* `resorted_valueWithin`: the values of a file under two orders;
* `Settings.Resorted.override?`, `Settings.load_in_order` and
  `Command.runSettings_in_order`: the settings of a run;
* `Survey.run?_of_resorted`: the surveys that they lead to;
* `Command.prepared_in_order`: what a run finds under another order.
-/

namespace LeafSurvey

namespace Value

/-- Two values are the same, but the items of sets in them may stand in another
order. -/
inductive Resorted : Value → Value → Prop
  | refl (v : Value) : Resorted v v
  | set {items items' : List Value} (h : items.Perm items') :
      Resorted (set items) (set items')
  | pair {k k' v v' : Value} (hk : Resorted k k') (hv : Resorted v v') :
      Resorted (pair k v) (pair k' v')
  | item {v v' : Value} {items items' : List Value} (hv : Resorted v v')
      (hrest : Resorted (list items) (list items')) :
      Resorted (list (v :: items)) (list (v' :: items'))
  | entry {k v v' : Value} {entries entries' : List (Value × Value)}
      (hv : Resorted v v')
      (hrest : Resorted (map entries) (map entries')) :
      Resorted (map ((k, v) :: entries)) (map ((k, v') :: entries'))

theorem itemsHaveText_eq_all (items : List Value) :
    itemsHaveText items = items.all hasText := by
  induction items with
  | nil => rfl
  | cons v rest ih => rw [itemsHaveText, ih, List.all_cons]

namespace Resorted

variable {v v' : Value}

/-- Keys hold no sets. -/
theorem eq_of_isKey (h : Resorted v v') (hkey : v.isKey = true) : v' = v := by
  cases h with
  | refl => rfl
  | _ => cases hkey

theorem eq_of_isText (h : Resorted v v') (htext : v.isText = true) :
    v' = v := by
  refine h.eq_of_isKey ?_
  cases v with
  | text s => rfl
  | points codes => rfl
  | _ => cases htext

theorem isTruthy_eq (h : Resorted v v') : v'.isTruthy = v.isTruthy := by
  cases h with
  | set h =>
    rw [isTruthy, isTruthy, h.isEmpty_eq]
  | _ => rfl

/-- What can stand in a document holds no sets. -/
theorem eq_of_hasForm (h : Resorted v v') (hform : v.hasForm = true) :
    v' = v := by
  induction h with
  | refl => rfl
  | set => cases hform
  | pair _ _ ihk ihv =>
    obtain ⟨hk, hv⟩ := Bool.and_eq_true_iff.mp hform
    rw [ihk hk, ihv hv]
  | item _ _ ihv ihrest =>
    obtain ⟨hv, hrest⟩ := Bool.and_eq_true_iff.mp hform
    rw [ihv hv, list.inj (ihrest hrest)]
  | entry _ _ ihv ihrest =>
    obtain ⟨hkv, hrest⟩ := Bool.and_eq_true_iff.mp hform
    rw [ihv (Bool.and_eq_true_iff.mp hkv).2, map.inj (ihrest hrest)]

theorem hasText_eq (h : Resorted v v') : v'.hasText = v.hasText := by
  induction h with
  | refl => rfl
  | set h =>
    rw [hasText, hasText, itemsHaveText_eq_all, itemsHaveText_eq_all,
      Bool.eq_iff_iff]
    simp [h.mem_iff]
  | pair _ _ ihk ihv => rw [hasText, hasText, ihk, ihv]
  | item _ _ ihv ihrest =>
    rw [hasText, hasText] at ihrest
    rw [hasText, hasText, itemsHaveText, itemsHaveText, ihv, ihrest]
  | entry _ _ ihv ihrest =>
    rw [hasText, hasText] at ihrest
    rw [hasText, hasText, entriesHaveText, entriesHaveText, ihv, ihrest]

/-- Items stand for items, in one order or another. -/
theorem listed? (h : Resorted v v') {items : List Value}
    (hitems : v.listed? = some items) :
    ∃ items', v'.listed? = some items'
      ∧ ∀ x' ∈ items', ∃ x ∈ items, Resorted x x' := by
  induction h generalizing items with
  | refl => exact ⟨items, hitems, fun x hx => ⟨x, hx, .refl x⟩⟩
  | set h =>
    cases hitems
    exact ⟨_, rfl, fun x hx => ⟨x, h.mem_iff.mpr hx, .refl x⟩⟩
  | pair => cases hitems
  | item hv _ _ ihrest =>
    cases hitems
    obtain ⟨_, hrest, hall⟩ := ihrest rfl
    cases hrest
    refine ⟨_, rfl, List.forall_mem_cons.mpr ⟨⟨_, List.mem_cons_self, hv⟩,
      fun x' hx' => ?_⟩⟩
    obtain ⟨x, hx, hsame⟩ := hall x' hx'
    exact ⟨x, List.mem_cons_of_mem _ hx, hsame⟩
  | entry _ _ _ ihrest =>
    cases hitems
    obtain ⟨_, hrest, hall⟩ := ihrest rfl
    cases hrest
    refine ⟨_, rfl, List.forall_mem_cons.mpr ⟨⟨_, List.mem_cons_self, .refl _⟩,
      fun x' hx' => ?_⟩⟩
    obtain ⟨x, hx, hsame⟩ := hall x' hx'
    exact ⟨x, List.mem_cons_of_mem _ hx, hsame⟩

/-- Only what is a text itself can be a word without a form. -/
theorem hasForm_word (h : Resorted v v')
    (hform : (ofWord v.word).hasForm = true) :
    (ofWord v'.word).hasForm = true := by
  cases h with
  | refl => exact hform
  | _ => rfl

theorem list_map {α : Type} {f g : α → Value} (h : ∀ a, Resorted (f a) (g a))
    (xs : List α) :
    Resorted (list (xs.map f)) (list (xs.map g)) := by
  induction xs with
  | nil => exact .refl _
  | cons a rest ih => exact .item (h a) ih

theorem list_mapIdx {α : Type} {f g : Nat → α → Value}
    (h : ∀ i a, Resorted (f i a) (g i a)) (xs : List α) :
    Resorted (list (xs.mapIdx f)) (list (xs.mapIdx g)) := by
  rw [List.mapIdx_eq_zipIdx_map, List.mapIdx_eq_zipIdx_map]
  exact list_map (fun e : α × Nat => h e.2 e.1) _

theorem map_map {α : Type} {key f g : α → Value} (h : ∀ a, Resorted (f a) (g a))
    (xs : List α) :
    Resorted (map (xs.map fun a => (key a, f a)))
      (map (xs.map fun a => (key a, g a))) := by
  induction xs with
  | nil => exact .refl _
  | cons a rest ih => exact .entry (h a) ih

end Resorted

end Value

/-! ## Values of nodes -/

namespace Yaml.NodeValues

open Value (Resorted)

variable (order order' : SetOrder) (d : NodeValues)

theorem resorted_valueWithin (n : Nat) (around : List Enclosure) (id : NodeId) :
    Resorted (d.valueWithin order n around id)
      (d.valueWithin order' n around id) := by
  induction n generalizing around id with
  | zero => exact .refl _
  | succ n ih =>
    rw [valueWithin, valueWithin]
    cases d.made.lookup id with
    | none => exact .refl _
    | some m =>
      cases m with
      | single value isOwn => exact .refl _
      | list =>
        dsimp only
        split
        · exact .refl _
        · exact .list_map (fun _ => ih _ _) _
      | pairs =>
        dsimp only
        split
        · exact .refl _
        · refine .list_mapIdx (fun i e => ?_) _
          split
          · exact .refl _
          · exact .pair (ih _ _) (ih _ _)
      | set => exact .set ((order.perm _).trans (order'.perm _).symm)
      | map =>
        dsimp only
        split
        · exact .refl _
        · exact .map_map (fun _ => ih _ _) _

theorem resorted_value (id : NodeId) :
    Resorted (d.value order id) (d.value order' id) :=
  d.resorted_valueWithin order order' _ _ id

theorem resorted_opened (id : NodeId) :
    Resorted (d.opened order id) (d.opened order' id) := by
  rw [opened, opened]
  split
  · exact .list_map (d.resorted_value order order') _
  · exact .list_mapIdx (fun _ _ => .pair
      (d.resorted_valueWithin order order' _ _ _)
      (d.resorted_valueWithin order order' _ _ _)) _
  · exact d.resorted_value order order' id

end Yaml.NodeValues

/-! ## Overrides -/

open Value (Resorted)

/-- A value is given in its other order, or none is. -/
def GivenAlike : Option Value → Option Value → Prop :=
  Option.Rel Resorted

theorem GivenAlike.getD {given given' : Option Value}
    (h : GivenAlike given given') {present present' : Value}
    (hpresent : Resorted present present') :
    Resorted (given.getD present) (given'.getD present') := by
  cases h with
  | some h => exact h
  | none => exact hpresent

namespace Overrides

/-- Overrides for the same settings, with values in another order. -/
def Resorted (o o' : Overrides) : Prop :=
  List.Forall₂ (fun x x' => x'.1 = x.1 ∧ Value.Resorted x.2 x'.2) o o'

variable {o o' : Overrides}

theorem Resorted.refl (o : Overrides) : o.Resorted o :=
  List.forall₂_same.mpr fun x _ => ⟨rfl, .refl x.2⟩

theorem isGiven_eq {v v' : Value} (h : Value.Resorted v v') :
    Settings.isGiven v' = Settings.isGiven v := by
  cases h <;> rfl

theorem Resorted.given? (h : o.Resorted o') (name : String) :
    GivenAlike (o.given? name) (o'.given? name) := by
  induction h with
  | nil => exact .none
  | @cons x x' _ _ hx _ ih =>
    rw [given?_cons, given?_cons, isGiven_eq hx.2, hx.1]
    split
    · exact .some hx.2
    · exact ih

theorem Resorted.isRefused (h : o.Resorted o')
    (hknown : ∀ x ∈ o, Settings.isRefused x = false) :
    ∀ x ∈ o', Settings.isRefused x = false := by
  induction h with
  | nil => exact hknown
  | @cons x x' _ _ hx _ ih =>
    obtain ⟨hfirst, hrest⟩ := List.forall_mem_cons.mp hknown
    refine List.forall_mem_cons.mpr ⟨?_, ih hrest⟩
    rwa [Settings.isRefused, isGiven_eq hx.2, hx.1]

end Overrides

namespace Settings

/-- The words can be written down wherever others can. -/
def WordsHold (ids ids' : List Value.Word) : Prop :=
  (∀ w ∈ ids, (Value.ofWord w).hasForm = true) →
    ∀ w ∈ ids', (Value.ofWord w).hasForm = true

/-- Settings with values in another order. -/
structure Resorted (s s' : Settings) : Prop where
  key : Value.Resorted s.key s'.key
  name : Value.Resorted s.name s'.name
  description : Value.Resorted s.description s'.description
  resourceTypes : WordsHold s.resourceTypes s'.resourceTypes
  locale : Value.Resorted s.locale s'.locale
  delimiter : Value.Resorted s.delimiter s'.delimiter
  reportFile : s'.reportFile = s.reportFile
  draftFile : s'.draftFile = s.draftFile

theorem Resorted.refl (s : Settings) : s.Resorted s :=
  ⟨.refl _, .refl _, .refl _, id, .refl _, .refl _, rfl, rfl⟩

/-- Resource types are listed in another order, with words for each. -/
theorem resourceTypes?_resorted {v v' : Value} (h : Value.Resorted v v')
    {ids : List Value.Word} (hids : resourceTypes? v = .ok ids) :
    ∃ ids', resourceTypes? v' = .ok ids' ∧ WordsHold ids ids' := by
  obtain ⟨items, hitems, htext, rfl⟩ := resourceTypes?_eq_ok.mp hids
  obtain ⟨items', hitems', hall⟩ := h.listed? hitems
  refine ⟨_, resourceTypes?_eq_ok.mpr ⟨items', hitems', fun x' hx' => ?_, rfl⟩,
    fun hforms w hw => ?_⟩
  · obtain ⟨x, hx, hsame⟩ := hall x' hx'
    exact hsame.hasText_eq.trans (htext x hx)
  · obtain ⟨x', hx', rfl⟩ := List.mem_map.mp hw
    obtain ⟨x, hx, hsame⟩ := hall x' hx'
    exact hsame.hasForm_word (hforms _ (List.mem_map_of_mem hx))

/-- A path is a text, which is the same in every order. -/
theorem path?_resorted {v v' : Value} (h : Value.Resorted v v') {p : FilePath}
    (hp : path? v = .ok p) : path? v' = .ok p := by
  rwa [h.eq_of_isText (exists_path_iff.mp ⟨p, hp⟩)]

theorem readOr_path?_resorted {present : FilePath} {given given' : Option Value}
    (h : GivenAlike given given') {p : FilePath}
    (hp : readOr path? present given = .ok p) :
    readOr path? present given' = .ok p := by
  cases h with
  | some h => exact path?_resorted h hp
  | none => exact hp

theorem readOr_resourceTypes?_resorted {present present' ids : List Value.Word}
    {given given' : Option Value} (hpresent : WordsHold present present')
    (h : GivenAlike given given')
    (hids : readOr resourceTypes? present given = .ok ids) :
    ∃ ids', readOr resourceTypes? present' given' = .ok ids'
      ∧ WordsHold ids ids' := by
  cases h with
  | some h => exact resourceTypes?_resorted h hids
  | none =>
    cases hids
    exact ⟨present', rfl, hpresent⟩

/-- Settings that are accepted with some overrides are accepted in another order
with the overrides in another order. -/
theorem Resorted.override? {s s' t : Settings} {o o' : Overrides}
    (h : s.Resorted s') (ho : o.Resorted o') (ht : s.override? o = .ok t) :
    ∃ t', s'.override? o' = .ok t' ∧ t.Resorted t' := by
  rw [← override?_unchecked] at ht
  obtain ⟨hknown, hmakes⟩ := Unchecked.override?_eq_ok.mp ht
  have hids := hmakes.resourceTypes_eq
  have hreport := hmakes.reportFile_eq
  have hdraft := hmakes.draftFile_eq
  rw [resourceTypes?_replace] at hids
  rw [reportFile_replace] at hreport
  rw [draftFile_replace] at hdraft
  obtain ⟨ids', hids', hhold⟩ :=
    readOr_resourceTypes?_resorted h.resourceTypes (ho.given? _) hids
  have hreport' := readOr_path?_resorted (ho.given? _) hreport
  have hdraft' := readOr_path?_resorted (ho.given? _) hdraft
  have hdelimiter := (ho.given? "delimiter").getD h.delimiter
  rw [← h.reportFile] at hreport'
  rw [← h.draftFile] at hdraft'
  refine ⟨⟨(o'.given? "key").getD s'.key, (o'.given? "name").getD s'.name,
    (o'.given? "description").getD s'.description, ids',
    (o'.given? "locale").getD s'.locale,
    (o'.given? "delimiter").getD s'.delimiter, t.reportFile, t.draftFile⟩,
    ?_, ?_⟩
  · rw [← override?_unchecked, Unchecked.override?_eq_ok]
    refine ⟨ho.isRefused hknown, rfl, rfl, rfl, ?_, rfl, rfl, ?_, ?_, ?_⟩
    · rw [resourceTypes?_replace, hids']
    · exact hdelimiter.isTruthy_eq.trans hmakes.isTruthy
    · rw [reportFile_replace, hreport']
    · rw [draftFile_replace, hdraft']
  · refine ⟨?_, ?_, ?_, hhold, ?_, ?_, rfl, rfl⟩
    · rw [hmakes.key_eq]
      exact (ho.given? "key").getD h.key
    · rw [hmakes.name_eq]
      exact (ho.given? "name").getD h.name
    · rw [hmakes.description_eq]
      exact (ho.given? "description").getD h.description
    · rw [hmakes.locale_eq]
      exact (ho.given? "locale").getD h.locale
    · rw [hmakes.delimiter_eq]
      exact hdelimiter

/-! ## Files -/

variable {order : SetOrder} (order' : SetOrder)

theorem resorted_overridesIn (d : Yaml.NodeValues)
    (entries : List (Value × Yaml.NodeId)) :
    (overridesIn order d entries).Resorted (overridesIn order' d entries) := by
  induction entries with
  | nil => exact .nil
  | cons e rest ih =>
    rw [overridesIn, overridesIn, List.filterMap_cons, List.filterMap_cons]
    cases settingName? e.1 with
    | none => exact ih
    | some name =>
      refine .cons ⟨rfl, ?_⟩ ih
      show Value.Resorted (valueAt order d name e.2) (valueAt order' d name e.2)
      rw [valueAt, valueAt]
      split
      · exact d.resorted_opened order order' e.2
      · exact d.resorted_value order order' e.2

theorem ofNodes?_in_order {file : FilePath} {d : Yaml.NodeValues}
    {settings : Settings} (h : ofNodes? order file d = .ok settings) :
    ∃ settings', ofNodes? order' file d = .ok settings'
      ∧ settings.Resorted settings' := by
  unfold ofNodes? at h ⊢
  split at h
  · rename_i entries hentries
    obtain ⟨o, ho, hsettings⟩ := Outcome.bind_eq_ok.mp h
    obtain ⟨hknown, rfl⟩ := overridesOf?_eq_ok.mp ho
    simp only [hentries, overridesOf?_of_known hknown]
    exact (Resorted.refl usual).override?
      (resorted_overridesIn order' d entries) hsettings
  · rename_i hentries hnull
    -- nothing but a null stands for a null in any order
    have hsorted := d.resorted_value order order' d.root
    rw [hnull] at hsorted
    simp only [hentries, hsorted.eq_of_isKey rfl]
    exact ⟨settings, h, .refl settings⟩
  · cases h

theorem ofBytes?_in_order {file : FilePath} {bytes : ByteArray}
    {settings : Settings} (h : ofBytes? order file bytes = .ok settings) :
    ∃ settings', ofBytes? order' file bytes = .ok settings'
      ∧ settings.Resorted settings' := by
  unfold ofBytes? at h ⊢
  split at h
  · cases h
  · cases h
  · cases h
  · exact ⟨settings, h, .refl settings⟩
  · exact ofNodes?_in_order order' h

/-- A settings file that is loaded in one order is loaded in every other. -/
theorem load_in_order {s : Store} {file : Option String} {settings : Settings}
    (h : load order s file = .ok settings) :
    ∃ settings', load order' s file = .ok settings'
      ∧ settings.Resorted settings' := by
  cases file with
  | none => exact ⟨settings, h, .refl settings⟩
  | some file =>
    simp only [load] at h ⊢
    split at h
    · cases h
    · cases h
    · exact ofBytes?_in_order order' h
    · cases h

end Settings

/-- Sets that are gone through from their end. -/
def SetOrder.backwards : SetOrder := ⟨List.reverse, List.reverse_perm⟩

/-- A settings file with resource types in a set. -/
def Store.typeSet : Store :=
  ⟨[(["c.yaml"], .file "resource_type_ids: !!set {a, b}\n".toUTF8)]⟩

/-- The order shows in the list that is made of them. -/
example :
    [SetOrder.written, .backwards].map (fun order =>
      (Settings.load order .typeSet (some "c.yaml")).toOption.map
        (·.resourceTypes))
    = [some [.chars "a", .chars "b"], some [.chars "b", .chars "a"]] := by
  decide +kernel

namespace Settings

/-! ## Surveys -/

/-- Where the locale is the same, fields are named and labelled alike. -/
theorem Resorted.naming? {settings settings' : Settings}
    (h : settings.Resorted settings')
    (hlocale : settings'.locale = settings.locale) {groups : Groups}
    {naming : Naming} (hnaming : settings.naming? groups = .ok naming) :
    settings'.naming? groups = .ok naming := by
  have hkey : settings'.localeKey? = settings.localeKey? := by
    rw [localeKey?, localeKey?, hlocale]
  by_cases hnamed : groups.named = []
  · rw [← hnaming, Settings.naming?, Settings.naming?, hnamed, hlocale]
    rfl
  · have htext := (naming?_eq_ok hnaming).2 hnamed
    rw [← hnaming, Settings.naming?, Settings.naming?, hlocale, hkey,
      h.delimiter.eq_of_isText htext]

end Settings

/-- A survey whose draft can be written differs under another order in its
resource types at most, and can be written there as well. -/
theorem Survey.run?_of_resorted {c : Corpus} {settings settings' : Settings}
    {s : Store} {survey : Survey} (h : settings.Resorted settings')
    (hrun : run? c settings s = .ok survey)
    (hform : survey.draft.toValue.hasForm = true) :
    ∃ survey', run? c settings' s = .ok survey' ∧ survey'.report = survey.report
      ∧ survey'.draft = { survey.draft with
          resourceTypes := settings'.resourceTypes }
      ∧ survey.draft.resourceTypes = settings.resourceTypes
      ∧ survey'.draft.toValue.hasForm = true := by
  obtain ⟨_, hfiles, hassemble⟩ := Outcome.bind_eq_ok.mp hrun
  obtain ⟨es, naming, hassembled⟩ := assemble_eq_ok.mp hassemble
  obtain ⟨hkey, hname, hdescription, hwords, hkeyText⟩ :=
    hassembled.hasForm_draft.mp hform
  have hlocale := h.locale.eq_of_isKey (Value.isKey_of_keyText? hkeyText)
  have hdraft := Draft.of?_eq_ok hassembled.draft
  have hdraft' : Draft.of? settings'
      (Field.ofGroups naming (Groups.ofEntries es))
      = .ok { survey.draft with resourceTypes := settings'.resourceTypes } := by
    refine Outcome.bind_eq_ok.mpr ⟨settings'.locale, ?_, ?_⟩
    · exact Settings.localeKey?_of_keyText? (hlocale.symm ▸ hkeyText)
    · rw [hdraft, hlocale, h.key.eq_of_hasForm hkey, h.name.eq_of_hasForm hname,
        h.description.eq_of_hasForm hdescription]
      rfl
  have hassembled' : Assembled c settings' s es naming
      ⟨survey.report,
        { survey.draft with resourceTypes := settings'.resourceTypes }⟩ :=
    ⟨hassembled.entries, hassembled.tokens,
      h.naming? hlocale hassembled.naming?, hdraft', hassembled.report⟩
  have hrun' : run? c settings' s = .ok _ :=
    Outcome.bind_eq_ok.mpr ⟨(), hfiles,
      assemble_eq_ok.mpr ⟨es, naming, hassembled'⟩⟩
  refine ⟨_, hrun', rfl, rfl, by rw [hdraft],
    hassembled'.hasForm_draft.mpr ⟨?_, ?_, ?_, ?_, ?_⟩⟩
  · rwa [h.key.eq_of_hasForm hkey]
  · rwa [h.name.eq_of_hasForm hname]
  · rwa [h.description.eq_of_hasForm hdescription]
  · exact h.resourceTypes hwords
  · rwa [hlocale]

namespace Command

variable {order : SetOrder} (order' : SetOrder)
  {config report draft key : Option Given}
  {s : Store}

/-- So are the settings of a run. -/
theorem runSettings_in_order {settings : Settings}
    (h : runSettings order config report draft key s = .ok settings) :
    ∃ settings', runSettings order' config report draft key s = .ok settings'
      ∧ settings.Resorted settings' := by
  obtain ⟨first, hfile, hline⟩ := Outcome.bind_eq_ok.mp h
  obtain ⟨first', hfile', hfirst⟩ : ∃ first',
      fileSettings order' s config = .ok first' ∧ first.Resorted first' := by
    unfold fileSettings at hfile ⊢
    split at hfile
    · exact Settings.load_in_order order' hfile
    · exact Settings.load_in_order order' hfile
    · cases hfile
  obtain ⟨settings', hline', hsorted⟩ := hfirst.override? (.refl _) hline
  exact ⟨settings', Outcome.bind_eq_ok.mpr ⟨first', hfile', hline'⟩, hsorted⟩

/-- What two processes find for one run, if it can be written: settings and
drafts differ in the resource types at most. -/
structure FindsAlike (p p' : Prepared) : Prop where
  reportFile : p'.settings.reportFile = p.settings.reportFile
  draftFile : p'.settings.draftFile = p.settings.draftFile
  report : p'.survey.report = p.survey.report
  draft : p'.survey.draft
    = { p.survey.draft with resourceTypes := p'.settings.resourceTypes }
  resourceTypes : p.survey.draft.resourceTypes = p.settings.resourceTypes
  hasForm : p'.survey.draft.toValue.hasForm = true

/-- With the same resource types it is the same draft. -/
theorem FindsAlike.draft_eq {p p' : Prepared} (h : FindsAlike p p')
    (htypes : p'.settings.resourceTypes = p.settings.resourceTypes) :
    p'.survey.draft = p.survey.draft := by
  rw [h.draft, htypes, ← h.resourceTypes]

/-- The closing notice is the same anyway. -/
theorem FindsAlike.closing_eq {p p' : Prepared} (h : FindsAlike p p') :
    p'.survey.closing p'.settings = p.survey.closing p.settings := by
  rw [Survey.closing, Survey.closing, h.reportFile, h.draftFile, h.draft]

/-- What can be prepared and written in one order can be so in every other. -/
theorem prepared_in_order {directory : String} {p : Prepared}
    (h : prepared order directory config report draft key s = .ok p)
    (hform : p.survey.draft.toValue.hasForm = true) :
    ∃ p', prepared order' directory config report draft key s = .ok p'
      ∧ FindsAlike p p' := by
  obtain ⟨hsettings, hopen, hsurvey⟩ := prepared_eq_ok.mp h
  obtain ⟨settings', hsettings', hsorted⟩ :=
    runSettings_in_order order' hsettings
  obtain ⟨survey', hsurvey', hreport, hdraft, htypes, hform'⟩ :=
    Survey.run?_of_resorted hsorted hsurvey hform
  exact ⟨⟨settings', p.corpus, survey'⟩,
    prepared_eq_ok.mpr ⟨hsettings', hopen, hsurvey'⟩, hsorted.reportFile,
    hsorted.draftFile, hreport, hdraft, htypes, hform'⟩

end Command

end LeafSurvey
