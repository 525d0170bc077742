import LeafSurvey.Proofs.FieldNames
import LeafSurvey.Proofs.Outlines
import LeafSurvey.Proofs.Writing

/-!
# Orders that do not matter

A survey depends on the order of files, of array items and of object members
only where two paths share a name. Two corpora are `Corpus.Reordered` when their
files can be paired so that each pair holds documents that become equal by
moving items and members around at any depth.

* `Reordered.leaves_perm`: such documents have the same leaves;
* `entries_perm`: such corpora have the same entries;
* `job_of_reordered`: they are surveyed with the same report, and with the same
  draft unless two paths share a name.
-/

namespace LeafSurvey

namespace Document

variable {α : Type}

/-- Two documents differ only in the order of items and members, at any depth:
one becomes the other by moving the items of an array or the members of an
object, here or further inside, again and again. -/
inductive Reordered : Document α → Document α → Prop
  | refl (d : Document α) : Reordered d d
  | items {xs ys : List (Document α)} : xs.Perm ys →
      Reordered (array xs) (array ys)
  | members {xs ys : List (String × Document α)} : xs.Perm ys →
      Reordered (object xs) (object ys)
  | inItem (front : List (Document α)) {d e : Document α}
      (rest : List (Document α)) :
      Reordered d e → Reordered (array (front ++ d :: rest))
        (array (front ++ e :: rest))
  | inMember (front : List (String × Document α)) (key : String)
      {d e : Document α}
      (rest : List (String × Document α)) : Reordered d e →
      Reordered (object (front ++ (key, d) :: rest))
        (object (front ++ (key, e) :: rest))
  | trans {d e f : Document α} : Reordered d e → Reordered e f → Reordered d f

namespace Reordered

theorem leaves_perm {d e : Document α} (h : Reordered d e) (path : Path)
    (inArray : Bool) :
    (d.leaves path inArray).Perm (e.leaves path inArray) := by
  -- one move is an exchange of whole parts of the list of leaves, under a path
  -- that grows with the depth
  induction h generalizing path inArray with
  | refl d => exact .refl _
  | items hperm =>
    rw [leaves, leaves, leavesOfItems_eq_flatMap, leavesOfItems_eq_flatMap]
    exact hperm.flatMap_right _
  | members hperm =>
    rw [leaves, leaves, leavesOfMembers_eq_flatMap, leavesOfMembers_eq_flatMap]
    exact hperm.flatMap_right _
  | inItem front rest _ ih =>
    rw [leaves, leaves, leavesOfItems_append, leavesOfItems_append,
      leavesOfItems, leavesOfItems]
    exact ((ih path true).append_right _).append_left _
  | inMember front key rest _ ih =>
    rw [leaves, leaves, leavesOfMembers_append, leavesOfMembers_append,
      leavesOfMembers, leavesOfMembers]
    exact ((ih (path ++ [key]) inArray).append_right _).append_left _
  | trans _ _ ihd ihe => exact (ihd path inArray).trans (ihe path inArray)

theorem hasDistinctKeys_eq {d e : Document α} (h : Reordered d e) :
    d.hasDistinctKeys = e.hasDistinctKeys := by
  induction h with
  | refl d => rfl
  | items hperm =>
    rw [hasDistinctKeys, hasDistinctKeys, itemsHaveDistinctKeys_eq_all,
      itemsHaveDistinctKeys_eq_all, hperm.all_eq]
  | members hperm =>
    rw [hasDistinctKeys, hasDistinctKeys, membersHaveDistinctKeys_eq_all,
      membersHaveDistinctKeys_eq_all, hperm.all_eq,
      decide_eq_decide.mpr (hperm.map Prod.fst).nodup_iff]
  | inItem front rest _ ih =>
    rw [hasDistinctKeys, hasDistinctKeys, itemsHaveDistinctKeys_eq_all,
      itemsHaveDistinctKeys_eq_all, List.all_append, List.all_append,
      List.all_cons, List.all_cons, ih]
  | inMember front key rest _ ih =>
    rw [hasDistinctKeys, hasDistinctKeys, membersHaveDistinctKeys_eq_all,
      membersHaveDistinctKeys_eq_all, List.all_append, List.all_append,
      List.all_cons, List.all_cons, ih, List.map_append, List.map_append,
      List.map_cons, List.map_cons]
  | trans _ _ ihd ihe => exact ihd.trans ihe

end Reordered

end Document

/-! ## Files -/

namespace Store

variable {s₁ s₂ : Store}

/-- Two files hold documents without repeated keys that differ only in the order
of items and members. -/
def HoldReordered (s₁ s₂ : Store) (file₁ file₂ : FilePath) : Prop :=
  ∃ d₁ d₂, s₁.writtenDocument file₁ = .ok d₁ ∧ s₂.writtenDocument file₂ = .ok d₂
    ∧ d₁.hasDistinctKeys = true ∧ d₁.Reordered d₂

theorem HoldReordered.entries_perm {file₁ file₂ : FilePath}
    (h : HoldReordered s₁ s₂ file₁ file₂) :
    ∃ es₁ es₂, s₁.entriesOfFile file₁ = .ok es₁
      ∧ s₂.entriesOfFile file₂ = .ok es₂
      ∧ es₁.Perm es₂ ∧ s₁.Passes file₁ ∧ s₂.Passes file₂ := by
  obtain ⟨d₁, d₂, h₁, h₂, hkeys, hreordered⟩ := h
  obtain ⟨es₁, hes₁, hleaves₁, hpass₁⟩ := exists_holds_of_distinct h₁ hkeys
  obtain ⟨es₂, hes₂, hleaves₂, hpass₂⟩ :=
    exists_holds_of_distinct h₂ (hreordered.hasDistinctKeys_eq ▸ hkeys)
  exact ⟨es₁, es₂, hes₁, hes₂,
    Outcome.mapM_perm (hreordered.leaves_perm [] false) hleaves₁ hleaves₂,
    hpass₁, hpass₂⟩

theorem passes_of_forall₂ {files₁ files₂ : List FilePath}
    (h : List.Forall₂ (HoldReordered s₁ s₂) files₁ files₂) :
    (∀ file ∈ files₁, s₁.Passes file) ∧ ∀ file ∈ files₂, s₂.Passes file := by
  induction h with
  | nil => simp
  | cons hpair _ ih =>
    obtain ⟨_, _, _, _, _, hpass₁, hpass₂⟩ := hpair.entries_perm
    exact ⟨List.forall_mem_cons.mpr ⟨hpass₁, ih.1⟩,
      List.forall_mem_cons.mpr ⟨hpass₂, ih.2⟩⟩

/-- Files that correspond one by one have the same entries altogether. -/
theorem entries_perm_of_forall₂ {files₁ files₂ : List FilePath}
    (h : List.Forall₂ (HoldReordered s₁ s₂) files₁ files₂) :
    ∃ parts₁ parts₂, files₁.mapM s₁.entriesOfFile = .ok parts₁
      ∧ files₂.mapM s₂.entriesOfFile = .ok parts₂
      ∧ parts₁.flatten.Perm parts₂.flatten := by
  obtain ⟨parts₁, parts₂, hparts₁, hparts₂, hrel⟩ :=
    Outcome.exists_mapM_of_forall₂ (h.imp fun _ _ hpair => by
      obtain ⟨es₁, es₂, hes₁, hes₂, hperm, _⟩ := hpair.entries_perm
      exact ⟨es₁, es₂, hes₁, hes₂, hperm⟩)
  exact ⟨parts₁, parts₂, hparts₁, hparts₂, .flatten_congr hrel⟩

end Store

/-! ## Corpora -/

namespace Corpus

/-- The files of two corpora can be paired, each with one of the other, so that
every pair holds documents without repeated keys that differ only in the order
of items and members. -/
def Reordered (c₁ : Corpus) (s₁ : Store) (c₂ : Corpus) (s₂ : Store) : Prop :=
  ∃ files, files.Perm c₂.files
    ∧ List.Forall₂ (Store.HoldReordered s₁ s₂) c₁.files files

namespace Reordered

variable {c₁ c₂ : Corpus} {s₁ s₂ : Store}

theorem length_files (h : Reordered c₁ s₁ c₂ s₂) :
    c₁.files.length = c₂.files.length := by
  obtain ⟨files, hperm, hpairs⟩ := h
  rw [hpairs.length_eq, hperm.length_eq]

theorem passes (h : Reordered c₁ s₁ c₂ s₂) :
    (∀ file ∈ c₁.files, s₁.Passes file)
      ∧ ∀ file ∈ c₂.files, s₂.Passes file := by
  obtain ⟨files, hperm, hpairs⟩ := h
  obtain ⟨hpass₁, hpass₂⟩ := Store.passes_of_forall₂ hpairs
  exact ⟨hpass₁, fun file hfile => hpass₂ file (hperm.mem_iff.mpr hfile)⟩

theorem entries_perm (h : Reordered c₁ s₁ c₂ s₂) :
    ∃ es₁ es₂, c₁.entries s₁ = .ok es₁ ∧ c₂.entries s₂ = .ok es₂
      ∧ es₁.Perm es₂ := by
  obtain ⟨files, hperm, hpairs⟩ := h
  obtain ⟨parts₁, parts, hparts₁, hparts, hentries⟩ :=
    Store.entries_perm_of_forall₂ hpairs
  -- the paired files of the second corpus stand in another order than the
  -- corpus has them
  obtain ⟨parts₂, hparts₂, hmoved⟩ := Outcome.exists_mapM_of_perm hperm hparts
  exact ⟨_, _, entries_eq_ok hparts₁, entries_eq_ok hparts₂,
    hentries.trans hmoved.flatten⟩

end Reordered

end Corpus

/-! ## Surveys -/

namespace Survey

/-- Corpora whose files differ only in their order, their places and the order
of items and members are both surveyed, with one report and with the same fields
up to their order. The fields stand in one order, so that the written drafts are
the same to the byte, where the delimiter tells the named paths apart. -/
theorem job_of_reordered {c₁ c₂ : Corpus} {settings : Settings}
    {m₁ m₂ : Machine} (htexts : settings.HasTexts)
    (h₁ : m₁.console.interruptsNext = false)
    (h₂ : m₂.console.interruptsNext = false)
    (h : Corpus.Reordered c₁ m₁.store c₂ m₂.store) :
    ∃ es survey₁ survey₂, c₁.entries m₁.store = .ok es
      ∧ ((job c₁ settings).runOn m₁).1 = .ok survey₁
      ∧ ((job c₂ settings).runOn m₂).1 = .ok survey₂
      ∧ survey₁.report = survey₂.report
      ∧ WrittenAlike survey₁.report.toValue survey₂.report.toValue
      ∧ survey₁.draft.fields.Perm survey₂.draft.fields
      ∧ (Set.InjOn (Path.joined settings.delimiter.plain)
          {path | path ∈ Entries.namedPaths es} →
          survey₁ = survey₂
            ∧ WrittenAlike survey₁.draft.toValue survey₂.draft.toValue) := by
  obtain ⟨hpass₁, hpass₂⟩ := h.passes
  obtain ⟨es₁, es₂, hes₁, hes₂, hperm⟩ := h.entries_perm
  obtain ⟨survey₁, hanswer₁⟩ := answer_of_passes htexts hpass₁
  obtain ⟨survey₂, hanswer₂⟩ := answer_of_passes htexts hpass₂
  rw [h₁] at hanswer₁
  rw [h₂] at hanswer₂
  obtain ⟨es, naming₁, hassembled₁⟩ := assembled_of_job hanswer₁
  cases hassembled₁.entries.symm.trans hes₁
  obtain ⟨es, naming₂, hassembled₂⟩ := assembled_of_job hanswer₂
  cases hassembled₂.entries.symm.trans hes₂
  have halike := Entries.alike_of_perm hperm
  obtain ⟨hreport, hfields, hsame⟩ :=
    hassembled₁.agree hassembled₂ h.length_files halike
  refine ⟨es₁, survey₁, survey₂, hes₁, hanswer₁, hanswer₂, hreport,
    hreport ▸ writtenAlike_refl survey₁.report.toValue, hfields, fun hinj => ?_⟩
  have hsurvey : survey₁ = survey₂ :=
    hsame (Entries.sortedPaths_eq_of_perm halike.namedPaths_perm
      fun p hp q hq hpq =>
        hinj hp hq (hassembled₁.delimiter_eq htexts hp ▸ hpq))
  exact ⟨hsurvey, hsurvey ▸ writtenAlike_refl survey₁.draft.toValue⟩

end Survey

/-! ## Two orders of one corpus -/

namespace Store

def listedText : String :=
  "\x7b\"a\": [1, \"x\"], \"b\": null\x7d"

/-- The same object with its members and its items in another order. -/
def relistedText : String :=
  "\x7b\"b\": null, \"a\": [\"x\", 1]\x7d"

def listed : Store :=
  ofTexts [("x.json", listedText), ("y.json", "true")]

/-- The two files in another order and under other names. -/
def relisted : Store :=
  ofTexts [("p.json", "true"), ("q.json", relistedText)]

theorem writtenDocument_listed : listed.writtenDocument ⟨.working, ["x.json"]⟩
    = .ok (.object [("a", .array [.leaf (.integer 1), .leaf (.text "x")]),
        ("b", .leaf .null)]) :=
  writtenDocument_of_text rfl (Json.skipMark_toUTF8 rfl rfl) rfl rfl

theorem writtenDocument_relisted :
    relisted.writtenDocument ⟨.working, ["q.json"]⟩
    = .ok (.object [("b", .leaf .null),
        ("a", .array [.leaf (.text "x"), .leaf (.integer 1)])]) :=
  writtenDocument_of_text rfl (Json.skipMark_toUTF8 rfl rfl) rfl rfl

theorem writtenDocument_true {s : Store} {p : FilePath}
    (h : s.read p = .ok "true".toUTF8) :
    s.writtenDocument p = .ok (.leaf (.boolean true)) :=
  writtenDocument_of_text h (Json.skipMark_toUTF8 rfl rfl) rfl rfl

end Store

namespace Corpus

theorem reordered_listed :
    Reordered (.ofNames ["x.json", "y.json"]) .listed
      (.ofNames ["p.json", "q.json"]) .relisted := by
  refine ⟨_, .swap _ _ _,
    .cons ⟨_, _, Store.writtenDocument_listed,
    Store.writtenDocument_relisted, by
    decide, ?_⟩ (.cons ⟨_, _, Store.writtenDocument_true rfl,
      Store.writtenDocument_true rfl, rfl, .refl _⟩ .nil)⟩
  -- first the items, inside, and then the members
  exact .trans (.inMember [] "a" _ (.items (.swap _ _ _)))
    (.members (.swap _ _ _))

theorem entries_listed :
    ∃ es, (ofNames ["x.json", "y.json"]).entries .listed = .ok es
      ∧ Entries.namedPaths es = [["a"], ["b"]] := by
  obtain ⟨es, hes, hleaves, _⟩ :=
    Store.exists_holds_of_distinct Store.writtenDocument_listed (by decide)
  obtain ⟨es', hes', hleaves', _⟩ :=
    Store.exists_holds_of_distinct
      (Store.writtenDocument_true (s := .listed) (p := ⟨.working, ["y.json"]⟩)
      rfl) rfl
  cases hleaves
  cases hleaves'
  have hparts : (ofNames ["x.json", "y.json"]).files.mapM
      Store.listed.entriesOfFile = .ok [_, _] :=
    Outcome.mapM_eq_ok.mpr (congrArg₂ (fun x y => [x, y]) hes hes')
  exact ⟨_, entries_eq_ok hparts, rfl⟩

end Corpus

/-- The two names tell the paths apart, so both corpora have one and the same
survey. -/
theorem Survey.job_of_relisted :
    ∃ survey, ((job (.ofNames ["x.json", "y.json"]) .usual).runOn
      ⟨.listed, .fresh none, []⟩).1 = .ok survey
      ∧ ((job (.ofNames ["p.json", "q.json"]) .usual).runOn
          ⟨.relisted, .fresh none, []⟩).1 = .ok survey := by
  obtain ⟨es, survey₁, survey₂, hes, hanswer₁, hanswer₂, _, _, _, hsame⟩ :=
    @job_of_reordered _ _ .usual ⟨.listed, .fresh none, []⟩
      ⟨.relisted, .fresh none, []⟩ ⟨rfl, rfl⟩ rfl rfl Corpus.reordered_listed
  obtain ⟨es', hes', hpaths⟩ := Corpus.entries_listed
  cases hes.symm.trans hes'
  have hinj : Set.InjOn (Path.joined Settings.usual.delimiter.plain)
      {path | path ∈ Entries.namedPaths es} := by
    rw [hpaths]
    intro p hp q hq hpq
    rcases List.mem_pair.mp hp with rfl | rfl <;>
      rcases List.mem_pair.mp hq with rfl | rfl
    · rfl
    · exact absurd hpq (by decide)
    · exact absurd hpq (by decide)
    · rfl
  obtain ⟨rfl, _⟩ := hsame hinj
  exact ⟨survey₁, hanswer₁, hanswer₂⟩

end LeafSurvey
