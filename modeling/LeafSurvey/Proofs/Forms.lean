import LeafSurvey.Draft
import LeafSurvey.Report
import LeafSurvey.Json.Layout

/-!
# Values with a document form

A layout is whole for a value of which every part can stand in a document:
numbers and texts may, days, times, octets and sets may not, and the keys of
mappings must have a text. The indentation has no part in it.

* `broken_layout`: a layout is whole exactly if its value has a form;
* `hasForm_toValue`: which values of a draft must have a form for the draft to
  have one.
-/

namespace LeafSurvey

namespace Value

mutual

/-- Whether a value has a form in a document. -/
def hasForm : Value → Bool
  | null => true
  | bool _ => true
  | int n => isWritable n
  | float _ => true
  | text _ => true
  | list items => itemsHaveForm items
  | pair k v => hasForm k && hasForm v
  | map entries => entriesHaveForm entries
  | _ => false

/-- Whether every item of a list has a form. -/
def itemsHaveForm : List Value → Bool
  | [] => true
  | v :: rest => hasForm v && itemsHaveForm rest

/-- Whether every key of a mapping has a text and every value a form. -/
def entriesHaveForm : List (Value × Value) → Bool
  | [] => true
  | (k, v) :: rest =>
    (Json.keyText? k).isSome && hasForm v && entriesHaveForm rest

end

theorem itemsHaveForm_eq_all (items : List Value) :
    itemsHaveForm items = items.all hasForm := by
  induction items with
  | nil => rfl
  | cons v rest ih => rw [itemsHaveForm, ih, List.all_cons]

end Value

namespace Json

theorem broken_behind (separator : List Char) (item : Value) (l : Layout) :
    (behind separator item l).broken = l.broken := by
  unfold behind
  split <;> rfl

theorem broken_layoutKey (separator : List Char) (k : Value) :
    (layoutKey separator k).broken = none ↔ (keyText? k).isSome = true := by
  unfold layoutKey
  cases keyText? k with
  | some s => simp [Emission.ofList]
  | none =>
    by_cases h : isText k = true <;> simp [h, Emission.fail, Emission.ofList]

mutual

/-- A layout is whole exactly if its value has a form. -/
theorem broken_layout (level : Nat) (v : Value) :
    (layout level v).broken = none ↔ v.hasForm = true := by
  cases v with
  | int n =>
    cases hn : Value.isWritable n <;>
      simp [layout, Value.hasForm, hn, Emission.fail, Emission.ofList]
  | pair k v =>
    simp only [layout, Emission.broken_append_eq_none, broken_behind,
      broken_layout (level + 1) k, broken_layout (level + 1) v, Value.hasForm,
      Bool.and_eq_true]
    simp [Emission.ofList]
  | list items =>
    cases items with
    | nil => simp [layout, Value.hasForm, Value.itemsHaveForm, Emission.ofList]
    | cons v rest =>
      simp only [layout, Emission.broken_append_eq_none, broken_behind,
        broken_layout (level + 1) v, broken_layoutItems (level + 1) rest,
        Value.hasForm, Value.itemsHaveForm, Bool.and_eq_true]
      simp [Emission.ofList]
  | map entries =>
    cases entries with
    | nil =>
      simp [layout, Value.hasForm, Value.entriesHaveForm, Emission.ofList]
    | cons e rest =>
      obtain ⟨k, v⟩ := e
      simp only [layout, Emission.broken_append_eq_none, broken_layoutKey,
        broken_layout (level + 1) v, broken_layoutEntries (level + 1) rest,
        Value.hasForm, Value.entriesHaveForm, Bool.and_eq_true]
      simp [Emission.ofList]
  | _ => simp [layout, Value.hasForm, Emission.fail, Emission.ofList]

theorem broken_layoutItems (level : Nat) (items : List Value) :
    (layoutItems level items).broken = none
      ↔ Value.itemsHaveForm items = true := by
  cases items with
  | nil => simp [layoutItems, Value.itemsHaveForm, Emission.empty]
  | cons v rest =>
    simp only [layoutItems, Emission.broken_append_eq_none, broken_behind,
      broken_layout level v, broken_layoutItems level rest, Value.itemsHaveForm,
      Bool.and_eq_true]

theorem broken_layoutEntries (level : Nat) (entries : List (Value × Value)) :
    (layoutEntries level entries).broken = none
      ↔ Value.entriesHaveForm entries = true := by
  cases entries with
  | nil => simp [layoutEntries, Value.entriesHaveForm, Emission.empty]
  | cons e rest =>
    obtain ⟨k, v⟩ := e
    simp only [layoutEntries, Emission.broken_append_eq_none, broken_layoutKey,
      broken_layout level v, broken_layoutEntries level rest,
      Value.entriesHaveForm, Bool.and_eq_true]

end

theorem broken_fileText (v : Value) :
    (fileText v).broken = none ↔ v.hasForm = true := by
  rw [fileText, Emission.broken_append_eq_none, broken_layout]
  simp [Emission.ofList]

end Json

/-! ## Records -/

/-- A record has a form when its values have. -/
theorem hasForm_record (members : List (String × Value)) :
    (record members).hasForm = members.all fun m => m.2.hasForm := by
  rw [record, Value.hasForm]
  induction members with
  | nil => rfl
  | cons m rest ih =>
    rw [List.map_cons, Value.entriesHaveForm, ih, List.all_cons]
    rfl

theorem FieldType.hasForm_toValue (t : FieldType) :
    t.toValue.hasForm = true := by
  cases t with
  | scalar t => simp [toValue, hasForm_record, Value.hasForm]
  | set t => simp [toValue, hasForm_record, Value.hasForm]

/-- Of a field only the locale can lack a form: it is the key of the label. -/
theorem Field.hasForm_toValue (d : Field) :
    d.toValue.hasForm = (Json.keyText? d.locale).isSome := by
  simp [toValue, hasForm_record, Value.hasForm, Value.entriesHaveForm,
    FieldType.hasForm_toValue]

/-- A draft has a form when its configured values and resource types have, and a
text for every locale. -/
theorem Draft.hasForm_toValue (d : Draft) : d.toValue.hasForm = true
    ↔ d.key.hasForm = true ∧ d.name.hasForm = true
        ∧ d.description.hasForm = true
      ∧ (∀ w ∈ d.resourceTypes, (Value.ofWord w).hasForm = true)
      ∧ (Json.keyText? d.locale).isSome = true
      ∧ ∀ f ∈ d.fields, (Json.keyText? f.locale).isSome = true := by
  have hfields : (d.fields.map Field.toValue).all Value.hasForm = true
      ↔ ∀ f ∈ d.fields, (Json.keyText? f.locale).isSome = true := by
    simp [Field.hasForm_toValue]
  have htypes : (d.resourceTypes.map Value.ofWord).all Value.hasForm = true
      ↔ ∀ w ∈ d.resourceTypes, (Value.ofWord w).hasForm = true := by
    simp
  rw [toValue, hasForm_record]
  simp only [List.all_cons, List.all_nil, Value.hasForm, Value.entriesHaveForm,
    Value.itemsHaveForm_eq_all, Bool.and_eq_true, Bool.and_true,
    hfields, htypes]
  constructor
  · rintro ⟨hkey, ⟨hlocale, hname⟩, ⟨_, hdescription⟩, hwords, hlabels⟩
    exact ⟨hkey, hname, hdescription, hwords, hlocale, hlabels⟩
  · rintro ⟨hkey, hname, hdescription, hwords, hlocale, hlabels⟩
    exact ⟨hkey, ⟨hlocale, hname⟩, ⟨hlocale, hdescription⟩, hwords, hlabels⟩

/-- Every count of a report is short enough to be written. -/
def Report.IsWritable (r : Report) : Prop :=
  ∀ c ∈ r.counts, Value.isWritable c.2 = true

theorem Report.hasForm_toValue {r : Report} :
    r.toValue.hasForm = true ↔ r.IsWritable := by
  simp [toValue, hasForm_record, IsWritable, Value.hasForm]

end LeafSurvey
