import LeafSurvey.Proofs.Drafting

/-!
# What a field type says

The type of a field is inferred from the kinds of value and the marks among the
entries of its path. Read the other way, a type describes these entries:
`FieldType.Describes` lists what can be told from it, and from which entries it
follows.

* `mem_kinds`, `isMixed_iff`, `isPlural_iff`: what the three tests look for
  among entries;
* `plainType_cases`: one kind of value gives its type, several kinds or nulls
  alone give `string`;
* `fields_describe`: there is one field for each named path, and its type
  describes the entries of this path.
-/

namespace LeafSurvey

namespace FieldType

/-- The type of the single values. -/
def base : FieldType → PlainType
  | scalar t => t
  | set t => t

/-- Whether the type is a set. -/
def isSet : FieldType → Bool
  | scalar _ => false
  | set _ => true

theorem isSet_iff {type : FieldType} :
    type.isSet = true ↔ type = .set type.base := by
  cases type with
  | scalar t => simp [isSet, base]
  | set t => simp [isSet, base]

end FieldType

namespace Entries

/-- Some entry has a value. -/
def HasValue (es : List Entry) : Prop :=
  ∃ e ∈ es, e.value.kind ≠ .null

/-- Two entries have values of different kinds. -/
def HasTwoKinds (es : List Entry) : Prop :=
  ∃ a ∈ es, ∃ b ∈ es, a.value.kind ≠ .null ∧ b.value.kind ≠ .null
    ∧ a.value.kind ≠ b.value.kind

/-! ## Kinds and marks -/

theorem mem_kinds {kind : Kind} {es : List Entry} :
    kind ∈ kinds es ↔ kind ≠ .null ∧ ∃ e ∈ es, e.value.kind = kind := by
  rw [kinds, List.mem_filter, List.any_eq_true]
  simp only [beq_iff_eq]
  cases kind with
  | null => simp
  | _ => simp

theorem nodup_kinds (es : List Entry) : (kinds es).Nodup :=
  List.Nodup.filter _ (by decide)

theorem isPlural_iff {es : List Entry} :
    isPlural es = true ↔ ∃ e ∈ es, e.inArray = true :=
  List.any_eq_true

/-- No kind, one kind or several kinds, by what the entries hold. -/
theorem kinds_cases (es : List Entry) :
    kinds es = [] ∧ (∀ e ∈ es, e.value.kind = .null)
      ∨ (∃ kind ≠ .null, kinds es = [kind] ∧ (∃ e ∈ es, e.value.kind = kind)
          ∧ ∀ e ∈ es, e.value.kind ≠ .null → e.value.kind = kind)
      ∨ (∃ kind other rest, kinds es = kind :: other :: rest)
          ∧ HasTwoKinds es := by
  have hnd := nodup_kinds es
  have hmem : ∀ kind, kind ∈ kinds es ↔ kind ≠ .null ∧ ∃ e ∈ es,
      e.value.kind = kind :=
    fun _ => mem_kinds
  rcases h : kinds es with _ | ⟨kind, _ | ⟨other, rest⟩⟩ <;> rw [h] at hmem hnd
  · refine .inl ⟨rfl, fun e he => ?_⟩
    by_contra hvalue
    exact List.not_mem_nil ((hmem _).mpr ⟨hvalue, e, he, rfl⟩)
  · obtain ⟨hvalue, hoccurs⟩ := (hmem kind).mp List.mem_cons_self
    refine .inr (.inl ⟨kind, hvalue, rfl, hoccurs, fun e he hne => ?_⟩)
    exact List.mem_singleton.mp ((hmem _).mpr ⟨hne, e, he, rfl⟩)
  · obtain ⟨hva, a, ha, rfl⟩ := (hmem kind).mp List.mem_cons_self
    obtain ⟨hvb, b, hb, rfl⟩ :=
      (hmem other).mp (List.mem_cons_of_mem _ List.mem_cons_self)
    -- the kinds are listed once each, so the first two differ
    have hne : a.value.kind ≠ b.value.kind := fun heq =>
      (List.nodup_cons.mp hnd).1 (heq ▸ List.mem_cons_self)
    exact .inr (.inr ⟨⟨_, _, _, rfl⟩, a, ha, b, hb, hva, hvb, hne⟩)

theorem not_hasTwoKinds_of_forall {kind : Kind} {es : List Entry}
    (h : ∀ e ∈ es, e.value.kind ≠ .null → e.value.kind = kind) :
    ¬HasTwoKinds es := by
  rintro ⟨a, ha, b, hb, hva, hvb, hne⟩
  exact hne ((h a ha hva).trans (h b hb hvb).symm)

theorem isMixed_iff {es : List Entry} : isMixed es = true ↔ HasTwoKinds es := by
  rw [isMixed, decide_eq_true_eq]
  rcases kinds_cases es with ⟨hk, hnull⟩ | ⟨kind, _, hk, _, hall⟩
    | ⟨⟨kind, other, rest, hk⟩, htwo⟩ <;> rw [hk]
  · refine ⟨fun h => absurd h (by decide), fun h => ?_⟩
    obtain ⟨a, ha, _, _, hva, _⟩ := h
    exact absurd (hnull a ha) hva
  · exact ⟨fun h => absurd h (Nat.lt_irrefl 1),
      fun h => absurd h (not_hasTwoKinds_of_forall hall)⟩
  · exact ⟨fun _ => htwo, fun _ => by simp⟩

/-- One kind of value gives its type; several kinds and nulls alone give
`string`. -/
theorem plainType_cases (es : List Entry) :
    (∃ kind ≠ .null,
      plainType es = .ofKind kind ∧ (∃ e ∈ es, e.value.kind = kind)
        ∧ ∀ e ∈ es, e.value.kind ≠ .null → e.value.kind = kind)
      ∨ plainType es = .string ∧ (HasTwoKinds es ∨ ¬HasValue es) := by
  rw [plainType, PlainType.ofKinds, eraseDups_of_nodup (nodup_kinds es)]
  rcases kinds_cases es with ⟨hk, hnull⟩ | ⟨kind, hvalue, hk, hoccurs, hall⟩
    | ⟨⟨_, _, _, hk⟩, htwo⟩ <;>
    rw [hk]
  · exact .inr ⟨rfl, .inr fun ⟨e, he, hvalue⟩ => hvalue (hnull e he)⟩
  · exact .inl ⟨kind, hvalue, rfl, hoccurs, hall⟩
  · exact .inr ⟨rfl, .inl htwo⟩

theorem plainType_of_hasTwoKinds {es : List Entry} (h : HasTwoKinds es) :
    plainType es = .string := by
  rcases plainType_cases es with ⟨kind, _, _, _, hall⟩ | ⟨hstring, _⟩
  · exact absurd h (not_hasTwoKinds_of_forall hall)
  · exact hstring

theorem base_fieldType (es : List Entry) :
    (fieldType es).base = plainType es := by
  rw [fieldType]
  cases isPlural es with
  | true => rfl
  | false => rfl

theorem isSet_fieldType (es : List Entry) :
    (fieldType es).isSet = isPlural es := by
  rw [fieldType]
  cases isPlural es with
  | true => rfl
  | false => rfl

end Entries

/-! ## Types that describe entries -/

theorem PlainType.name_ofKind {kind : Kind} (h : kind ≠ .null) :
    (ofKind kind).name = kind.name := by
  cases kind with
  | null => exact absurd rfl h
  | _ => rfl

namespace FieldType

/-- A type describes entries: their values and marks are those that it tells of,
and it tells of no others. -/
structure Describes (type : FieldType) (es : List Entry) : Prop where
  /-- Every value has the base type, unless it is `string` for values of two
  kinds. -/
  base_of_value : ∀ e ∈ es, e.value.kind ≠ .null →
    type.base.name = e.value.kind.name ∨ type.base = .string
      ∧ Entries.HasTwoKinds es
  set_of_inArray : ∀ e ∈ es, e.inArray = true → type = .set type.base
  /-- The base types `number` and `boolean` are not given away: there is a
  value, and all are such. -/
  values_of_base : type.base = .number ∨ type.base = .boolean →
    Entries.HasValue es
      ∧ ∀ e ∈ es, e.value.kind ≠ .null → e.value.kind.name = type.base.name
  texts_of_string : type.base = .string → ¬Entries.HasTwoKinds es →
    Entries.HasValue es →
    ∀ e ∈ es, e.value.kind ≠ .null → e.value.kind = .string
  inArray_of_set : type = .set type.base → ∃ e ∈ es, e.inArray = true

end FieldType

theorem Entries.describes_fieldType (es : List Entry) :
    (fieldType es).Describes es := by
  have hbase := base_fieldType es
  have hset : fieldType es = .set (fieldType es).base
      ↔ ∃ e ∈ es, e.inArray = true := by
    rw [← FieldType.isSet_iff, isSet_fieldType, isPlural_iff]
  refine ⟨?_, fun e he hmark => hset.mpr ⟨e, he, hmark⟩, ?_, ?_, hset.mp⟩ <;>
    rw [hbase]
  · intro e he hvalue
    rcases plainType_cases es with
      ⟨kind, hkind, hplain, _, hall⟩ | ⟨hplain, htwo | hnone⟩
    · rw [hplain, PlainType.name_ofKind hkind, hall e he hvalue]
      exact .inl rfl
    · exact .inr ⟨hplain, htwo⟩
    · exact absurd ⟨e, he, hvalue⟩ hnone
  · intro h
    rcases plainType_cases es with ⟨kind, hkind, hplain, ⟨e, he, hoccurs⟩,
      hall⟩ | ⟨hplain, _⟩
    · refine ⟨⟨e, he, hoccurs ▸ hkind⟩, fun a ha hvalue => ?_⟩
      rw [hplain, PlainType.name_ofKind hkind, hall a ha hvalue]
    · rw [hplain] at h
      rcases h with h | h <;> cases h
  · intro hstring hsame hvalues
    rcases plainType_cases es with
      ⟨kind, hkind, hplain, _, hall⟩ | ⟨_, htwo | hnone⟩
    · intro e he hvalue
      rw [hall e he hvalue]
      -- of the three kinds of value only one has this type
      rw [hplain] at hstring
      cases kind with
      | null => exact absurd rfl hkind
      | string => rfl
      | _ => cases hstring
    · exact absurd htwo hsame
    · exact absurd hvalues hnone

/-- Entries give one field for each named path among them, and no other. The
field has the path for its name and label, and its type describes the entries of
the path. -/
theorem Field.fields_describe (naming : Naming) (es : List Entry) :
    (Field.ofGroups naming (Groups.ofEntries es)).Perm
        ((Entries.namedPaths es).map (Field.ofPath naming es))
      ∧ (Entries.namedPaths es).Nodup
      ∧ ∀ path : Path, path ≠ [] → (∃ e ∈ es, e.path.normalized = path) →
          path ∈ Entries.namedPaths es
          ∧ (Field.ofPath naming es path).name = path.joined naming.delimiter
          ∧ (Field.ofPath naming es path).label = path.joined "."
          ∧ (Field.ofPath naming es path).type.Describes
              (Entries.sharing path es) :=
  ⟨Field.ofGroups_perm naming es, Entries.nodup_namedPaths es,
    fun path hpath hoccurs =>
      ⟨Entries.mem_namedPaths.mpr ⟨hpath, hoccurs⟩, rfl, rfl,
        Entries.describes_fieldType (Entries.sharing path es)⟩⟩

/-- Nulls count for nothing, and one entry in an array makes a set. -/
example :
    Entries.fieldType
      (Entries.sharing ["a"] [⟨["a"], .null, false⟩, ⟨["b"], .text "", false⟩,
        ⟨["a", "0"], .boolean true, true⟩]) = .set .boolean := by
  decide

end LeafSurvey
