import LeafSurvey.Proofs.Grouping
import LeafSurvey.Proofs.Leaves
import LeafSurvey.FieldType

/-!
# Numbered members and array items

A number in a path is dropped when entries are grouped, and an array leaves no
trace in a path. So it makes no difference to the groups whether records stand
in an array or under numeric keys, and which numbers these are. Only the marks
can tell: an object sets none.

* `Rekeyed.leaves`: the leaves of a document whose arrays have become numbered
  objects, and whose numeric keys have been renamed, agree one by one with the
  leaves of the document;
* `Groups.ofEntries_rekeyed`: entries that agree one by one make groups that
  agree one by one;
* `entries_and_groups_of_rekeyed`: the two documents have the same entries and
  groups in this sense.
-/

namespace LeafSurvey

namespace Path

/-- Two segments are the same, or numbers both. -/
def SameSegment (segment segment' : String) : Prop :=
  segment = segment' ∨ isNumeric segment = true ∧ isNumeric segment' = true

theorem normalized_concat_numeric (path : Path) {segment : String}
    (h : isNumeric segment = true) :
    normalized (path ++ [segment]) = path.normalized := by
  rw [normalized_append]
  simp [normalized, h]

theorem SameSegment.normalized_concat {segment segment' : String}
    (h : SameSegment segment segment') {path path' : Path}
    (hpath : path.normalized = path'.normalized) :
    normalized (path ++ [segment]) = normalized (path' ++ [segment']) := by
  rcases h with rfl | ⟨hnum, hnum'⟩
  · rw [normalized_append, normalized_append, hpath]
  · rw [normalized_concat_numeric path hnum,
      normalized_concat_numeric path' hnum', hpath]

end Path

/-! ## Documents -/

namespace Document

variable {α : Type}

/-- The second document is the first with any numeric keys renamed to numeric
keys and, where `replacing` allows it, any arrays replaced by objects with the
items under numeric keys, in the same order. That the keys of an object stay
distinct is not asked for. -/
inductive Rekeyed (replacing : Bool) : Document α → Document α → Prop
  | leaf (a : α) : Rekeyed replacing (leaf a) (leaf a)
  | array {items items' : List (Document α)}
      (hlength : items.length = items'.length)
      (hitems : ∀ p ∈ items.zip items', Rekeyed replacing p.1 p.2) :
      Rekeyed replacing (array items) (array items')
  | replaced {items : List (Document α)} {members : List (String × Document α)}
      (hreplacing : replacing = true) (hlength : items.length = members.length)
      (hkeys : ∀ m ∈ members, Path.isNumeric m.1 = true)
      (hitems : ∀ p ∈ items.zip members, Rekeyed replacing p.1 p.2.2) :
      Rekeyed replacing (array items) (object members)
  | object {members members' : List (String × Document α)}
      (hlength : members.length = members'.length)
      (hkeys : ∀ p ∈ members.zip members', Path.SameSegment p.1.1 p.2.1)
      (hmembers : ∀ p ∈ members.zip members', Rekeyed replacing p.1.2 p.2.2) :
      Rekeyed replacing (object members) (object members')

@[simp] theorem rekeyed_leaf (replacing : Bool) (a : α) :
    (leaf a).Rekeyed replacing (leaf a) :=
  .leaf a

@[simp] theorem rekeyed_array {replacing : Bool}
    {items items' : List (Document α)} :
    (array items).Rekeyed replacing (array items')
      ↔ items.length = items'.length
          ∧ ∀ p ∈ items.zip items', p.1.Rekeyed replacing p.2 := by
  constructor
  · intro h
    cases h with
    | array hlength hitems => exact ⟨hlength, hitems⟩
  · rintro ⟨hlength, hitems⟩
    exact .array hlength hitems

@[simp] theorem rekeyed_replaced {replacing : Bool} {items : List (Document α)}
    {members : List (String × Document α)} :
    (array items).Rekeyed replacing (object members)
      ↔ replacing = true ∧ items.length = members.length
          ∧ (∀ m ∈ members, Path.isNumeric m.1 = true)
        ∧ ∀ p ∈ items.zip members, p.1.Rekeyed replacing p.2.2 := by
  constructor
  · intro h
    cases h with
    | replaced hreplacing hlength hkeys hitems =>
      exact ⟨hreplacing, hlength, hkeys, hitems⟩
  · rintro ⟨hreplacing, hlength, hkeys, hitems⟩
    exact .replaced hreplacing hlength hkeys hitems

@[simp] theorem rekeyed_object {replacing : Bool}
    {members members' : List (String × Document α)} :
    (object members).Rekeyed replacing (object members')
      ↔ members.length = members'.length
          ∧ (∀ p ∈ members.zip members', Path.SameSegment p.1.1 p.2.1)
        ∧ ∀ p ∈ members.zip members', p.1.2.Rekeyed replacing p.2.2 := by
  constructor
  · intro h
    cases h with
    | object hlength hkeys hmembers => exact ⟨hlength, hkeys, hmembers⟩
  · rintro ⟨hlength, hkeys, hmembers⟩
    exact .object hlength hkeys hmembers

end Document

namespace Placed

variable {α : Type}

/-- Two places agree for the groups. The second may lack a mark where arrays
have been replaced. -/
structure Rekeyed (replacing : Bool) (l l' : Placed α) : Prop where
  path_eq : l.path.normalized = l'.path.normalized
  value_eq : l.value = l'.value
  inArray_of : l'.inArray = true → l.inArray = true
  inArray_eq : replacing = false → l.inArray = l'.inArray

end Placed

namespace Document

variable {α β : Type}

/-- Parts that agree pairwise, for pairs that stand at the same place, agree as
a whole. -/
theorem forall₂_flatMap_zip {γ δ : Type} {R : γ → δ → Prop} {xs : List α}
    {ys : List β} {f : α → List γ} {g : β → List δ}
    (hlength : xs.length = ys.length)
    (h : ∀ p ∈ xs.zip ys, List.Forall₂ R (f p.1) (g p.2)) :
    List.Forall₂ R (xs.flatMap f) (ys.flatMap g) :=
  List.rel_flatMap (List.forall₂_iff_zip.mpr ⟨hlength, fun hp => hp⟩)
    fun {x y} hp => h (x, y) hp

/-- The leaves agree one by one, from roots that agree. -/
theorem Rekeyed.leaves {replacing : Bool} {d e : Document α}
    (h : d.Rekeyed replacing e) {path path' : Path} {inArray inArray' : Bool}
    (hpath : path.normalized = path'.normalized)
    (hmark : inArray' = true → inArray = true)
    (hmarkeq : replacing = false → inArray = inArray') :
    List.Forall₂ (Placed.Rekeyed replacing) (d.leaves path inArray)
      (e.leaves path' inArray') := by
  -- on the way down the roots keep agreeing: below an array both marks are set,
  -- below a replaced one the first
  induction h generalizing path path' inArray inArray' with
  | leaf a => exact .cons ⟨hpath, rfl, hmark, hmarkeq⟩ .nil
  | array hlength _ ih =>
    rw [Document.leaves, Document.leaves, leavesOfItems_eq_flatMap,
      leavesOfItems_eq_flatMap]
    exact forall₂_flatMap_zip hlength fun p hp =>
      ih p hp hpath (fun _ => rfl) fun _ => rfl
  | replaced hreplacing hlength hkeys _ ih =>
    rw [Document.leaves, Document.leaves, leavesOfItems_eq_flatMap,
      leavesOfMembers_eq_flatMap]
    refine forall₂_flatMap_zip hlength fun p hp =>
      ih p hp ?_ (fun _ => rfl) fun hkeep => ?_
    · rw [Path.normalized_concat_numeric path'
        (hkeys p.2 (List.of_mem_zip hp).2), hpath]
    · rw [hreplacing] at hkeep
      cases hkeep
  | object hlength hkeys _ ih =>
    rw [Document.leaves, Document.leaves, leavesOfMembers_eq_flatMap,
      leavesOfMembers_eq_flatMap]
    exact forall₂_flatMap_zip hlength fun p hp =>
      ih p hp ((hkeys p hp).normalized_concat hpath) hmark hmarkeq

end Document

/-! ## Entries -/

/-- Two entries agree for the groups. The second may lack a mark where arrays
have been replaced. -/
structure Entry.Rekeyed (replacing : Bool) (e e' : Entry) : Prop where
  path_eq : e.path.normalized = e'.path.normalized
  value_eq : e.value = e'.value
  inArray_of : e'.inArray = true → e.inArray = true
  inArray_eq : replacing = false → e.inArray = e'.inArray

namespace Document

/-- A walk emits entries that agree at leaves that agree, and breaks off at the
same leaf. -/
theorem emitAll_rekeyed {replacing : Bool} {ls ls' : List (Placed Leaf)}
    (h : List.Forall₂ (Placed.Rekeyed replacing) ls ls') :
    List.Forall₂ (Entry.Rekeyed replacing) (emitAll ls).items
      (emitAll ls').items
      ∧ (emitAll ls).broken = (emitAll ls').broken := by
  induction h with
  | nil => exact ⟨.nil, rfl⟩
  | @cons l l' rest rest' hl _ ih =>
    rw [emitAll, emitAll, leafEntries, leafEntries, ← hl.value_eq]
    cases l.value.scalar? with
    | error x => exact ⟨.nil, rfl⟩
    | ok value =>
      exact ⟨.cons ⟨hl.path_eq, rfl, hl.inArray_of, hl.inArray_eq⟩ ih.1, ih.2⟩

end Document

/-! ## Groups -/

/-- Two groups agree: they have one path, the same values in the same order and
so the same type of single values. The second is a set only if the first is, and
they have the same type if no arrays have been replaced. -/
structure Group.Rekeyed (replacing : Bool) (g g' : Group) : Prop where
  path_eq : g.path = g'.path
  members : List.Forall₂ (Entry.Rekeyed replacing) g.members g'.members
  values_eq : g.members.map Entry.value = g'.members.map Entry.value
  plainType_eq : Entries.plainType g.members = Entries.plainType g'.members
  isPlural_of : Entries.isPlural g'.members = true →
    Entries.isPlural g.members = true
  fieldType_eq : replacing = false → Entries.fieldType g.members
    = Entries.fieldType g'.members

namespace Entries

variable {replacing : Bool} {es es' : List Entry}

/-- Projections that agree on entries that agree are the same for all of
them. -/
theorem map_eq_of_rekeyed {β : Type} {f : Entry → β}
    (h : List.Forall₂ (Entry.Rekeyed replacing) es es')
    (hf : ∀ e e', e.Rekeyed replacing e' → f e = f e') :
    es.map f = es'.map f := by
  rw [← List.forall₂_eq_eq_eq, List.forall₂_map_left_iff,
    List.forall₂_map_right_iff]
  exact h.imp hf

theorem plainType_eq_of_values_eq
    (h : es.map Entry.value = es'.map Entry.value) :
    plainType es = plainType es' := by
  have hany : ∀ (xs : List Entry) (k : Kind),
      xs.any (fun e => e.value.kind == k) = (xs.map Entry.value).any fun v =>
        v.kind == k := by
    intro xs k
    rw [List.any_map]
    rfl
  rw [plainType, plainType, kinds, kinds]
  simp only [hany, h]

theorem isPlural_eq_of_marks_eq
    (h : es.map Entry.inArray = es'.map Entry.inArray) :
    isPlural es = isPlural es' := by
  have hany : ∀ xs : List Entry,
      isPlural xs = (xs.map Entry.inArray).any id := by
    intro xs
    rw [List.any_map]
    rfl
  rw [hany, hany, h]

theorem isPlural_of_rekeyed (h : List.Forall₂ (Entry.Rekeyed replacing) es es')
    (hplural : isPlural es' = true) : isPlural es = true := by
  rw [isPlural, List.any_eq_true] at *
  induction h with
  | nil => exact hplural
  | @cons e e' rest rest' he _ ih =>
    obtain ⟨f, hf, hmark⟩ := hplural
    rcases List.mem_cons.mp hf with rfl | hf
    · exact ⟨e, List.mem_cons_self, he.inArray_of hmark⟩
    · obtain ⟨g, hg, hmark⟩ := ih ⟨f, hf, hmark⟩
      exact ⟨g, List.mem_cons_of_mem _ hg, hmark⟩

/-- Groups of one path agree when their entries agree one by one. -/
theorem group_rekeyed (path : Path)
    (h : List.Forall₂ (Entry.Rekeyed replacing) es es') :
    Group.Rekeyed replacing ⟨path, es⟩ ⟨path, es'⟩ := by
  have hvalues := map_eq_of_rekeyed h fun _ _ he => he.value_eq
  have htype := plainType_eq_of_values_eq hvalues
  refine ⟨rfl, h, hvalues, htype, isPlural_of_rekeyed h, fun hkeep => ?_⟩
  have hmarks := map_eq_of_rekeyed h fun _ _ he => he.inArray_eq hkeep
  rw [fieldType, fieldType, isPlural_eq_of_marks_eq hmarks, htype]

theorem sharing_rekeyed (path : Path)
    (h : List.Forall₂ (Entry.Rekeyed replacing) es es') :
    List.Forall₂ (Entry.Rekeyed replacing) (sharing path es)
      (sharing path es') := by
  refine List.rel_filter (fun e e' he => ?_) h
  show decide (e.path.normalized = path) = true
    ↔ decide (e'.path.normalized = path) = true
  rw [he.path_eq]

theorem paths_eq_of_rekeyed
    (h : List.Forall₂ (Entry.Rekeyed replacing) es es') :
    paths es = paths es' := by
  rw [paths, paths, map_eq_of_rekeyed h fun _ _ he => he.path_eq]

end Entries

/-- Entries that agree one by one make groups that agree one by one. -/
theorem Groups.ofEntries_rekeyed {replacing : Bool} {es es' : List Entry}
    (h : List.Forall₂ (Entry.Rekeyed replacing) es es') :
    List.Forall₂ (Group.Rekeyed replacing) (ofEntries es) (ofEntries es') := by
  rw [ofEntries_eq, ofEntries_eq, ← Entries.paths_eq_of_rekeyed h,
    List.forall₂_map_left_iff, List.forall₂_map_right_iff, List.forall₂_same]
  exact fun path _ =>
    Entries.group_rekeyed path (Entries.sharing_rekeyed path h)

namespace Document

/-- Whether records stand in arrays or under numeric keys, and under which, does
not matter to the groups. When arrays of a document are replaced by objects with
the items under numeric keys, at any depth, and numeric keys are renamed, the
walk has entries of the same normalized paths and values, one by one, and breaks
off at the same leaf if at all. So the groups have the same paths in the same
order, and each the same values and the same type of single values. A mark that
is set still was set before, and all are as before when keys alone were
renamed. -/
theorem entries_and_groups_of_rekeyed {replacing : Bool} {d e : Document Leaf}
    (h : d.Rekeyed replacing e) (path : Path) (inArray : Bool) :
    List.Forall₂ (Entry.Rekeyed replacing) (d.entries path inArray).items
        (e.entries path inArray).items
      ∧ (d.entries path inArray).broken = (e.entries path inArray).broken
      ∧ List.Forall₂ (Group.Rekeyed replacing)
          (Groups.ofEntries (d.entries path inArray).items)
          (Groups.ofEntries (e.entries path inArray).items) := by
  have hleaves :=
    h.leaves (rfl : path.normalized = _) (fun hmark : inArray = true => hmark)
      fun _ => rfl
  rw [entries_eq_emitAll, entries_eq_emitAll]
  obtain ⟨hentries, hbroken⟩ := emitAll_rekeyed hleaves
  exact ⟨hentries, hbroken, Groups.ofEntries_rekeyed hentries⟩

/-- Records in an array, with an array in one of them, and records under
numbers. -/
def records : Document Leaf :=
  .object [
    ("list", .array [
      .object [("id", .leaf (.integer 1)),
        ("tags", .array [.leaf (.text "a"), .leaf .null])],
      .object [("id", .leaf (.integer 2))]]),
    ("0", .object [("id", .leaf (.text "x"))]),
    ("1", .object [("id", .leaf (.boolean true))])]

/-- The records with both arrays replaced, and other numbers: some in digits of
other scripts. -/
def renumbered : Document Leaf :=
  .object [
    ("list", .object [
      ("٣", .object [("id", .leaf (.integer 1)),
        ("tags", .object [("7", .leaf (.text "a")), ("०७", .leaf .null)])]),
      ("0", .object [("id", .leaf (.integer 2))])]),
    ("1", .object [("id", .leaf (.text "x"))]),
    ("٠", .object [("id", .leaf (.boolean true))])]

theorem records_rekeyed : records.Rekeyed true renumbered := by
  have hdigits : Path.isNumeric "0" = true ∧ Path.isNumeric "1" = true
      ∧ Path.isNumeric "7" = true
      ∧ Path.isNumeric "٠" = true ∧ Path.isNumeric "٣" = true
      ∧ Path.isNumeric "०७" = true := by decide
  simp [records, renumbered, Path.SameSegment, hdigits]

/-- The groups agree. The records under numbers are one group before and after;
those of the array are sets before and no longer after. -/
theorem groups_of_renumbered :
    records.Rekeyed true renumbered
      ∧ List.Forall₂ (Group.Rekeyed true)
          (Groups.ofEntries (records.entries [] false).items)
        (Groups.ofEntries (renumbered.entries [] false).items)
      ∧ (Groups.ofEntries (records.entries [] false).items).map
          (fun g => (g.path, Entries.fieldType g.members))
        = [(["list", "id"], .set .number), (["list", "tags"], .set .string),
            (["id"], .scalar .string)]
      ∧ (Groups.ofEntries (renumbered.entries [] false).items).map
          (fun g => (g.path, Entries.fieldType g.members))
        = [(["list", "id"], .scalar .number),
            (["list", "tags"], .scalar .string), (["id"], .scalar .string)] :=
  ⟨records_rekeyed,
    (entries_and_groups_of_rekeyed records_rekeyed [] false).2.2, by
    decide, by decide⟩

end Document

end LeafSurvey
