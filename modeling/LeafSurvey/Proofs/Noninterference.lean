import LeafSurvey.Proofs.Discovery
import LeafSurvey.Proofs.Skeletons
import LeafSurvey.Proofs.Writing

/-!
# Values that do not show

Replacing scalar tokens by others of their kind changes nothing that a survey
shows, as long as the same number of each file, or none, is not taken in. Two
corpora are `Corpus.SameButScalars` when they have the same files below their
roots and the texts of each file have one skeleton.

* `SameButScalars.holds_or_fails`: such files hold documents with the same
  outlines and as many scalar tokens, or fail by the same number;
* `checkFile_eq`: their checks come out alike, whether keys are repeated or not;
* `SameButScalars.of_open?`: the order of the files is no premise for corpora
  that have been opened;
* `runs_agree`: the surveys of such corpora answer alike, and so do the two
  tables.
-/

namespace LeafSurvey

theorem map_eq_of_forall₂ {α β γ : Type} {f : α → γ} {g : β → γ} {xs : List α}
    {ys : List β} (h : List.Forall₂ (fun x y => f x = g y) xs ys) :
    xs.map f = ys.map g := by
  rw [← List.forall₂_eq_eq_eq, List.forall₂_map_left_iff,
    List.forall₂_map_right_iff]
  exact h

/-! ## Files -/

namespace Store

variable {s₁ s₂ : Store} {file₁ file₂ : FilePath}

/-- The first of two files is the text of a document, and their texts differ
only in scalar tokens of the same kinds. The numbers of both are taken in, or
both are refused for a number, and for the same fault. -/
def SameButScalars (s₁ s₂ : Store) (file₁ file₂ : FilePath) : Prop :=
  ∃ bytes₁ bytes₂ d, s₁.read file₁ = .ok bytes₁ ∧ s₂.read file₂ = .ok bytes₂
    ∧ Json.ofBytes? bytes₁ = .ok d
    ∧ Json.skeletonOfBytes? bytes₁ = Json.skeletonOfBytes? bytes₂
    ∧ Json.refusedNumber? bytes₁ = Json.refusedNumber? bytes₂

/-- Two files hold documents with the same outlines and as many scalar
tokens. -/
def HoldAlike (s₁ s₂ : Store) (file₁ file₂ : FilePath) : Prop :=
  ∃ written₁ es₁ written₂ es₂, s₁.Holds file₁ written₁ es₁
    ∧ s₂.Holds file₂ written₂ es₂
    ∧ es₁.map Entry.outline = es₂.map Entry.outline
    ∧ written₁.leafCount = written₂.leafCount

namespace SameButScalars

theorem holds_or_fails (h : s₁.SameButScalars s₂ file₁ file₂) :
    HoldAlike s₁ s₂ file₁ file₂
      ∨ ∃ failure, s₁.Fails file₁ failure ∧ s₂.Fails file₂ failure := by
  obtain ⟨bytes₁, bytes₂, d, hread₁, hread₂, hd, hskeleton, hnumbers⟩ := h
  cases hnumber : Json.refusedNumber? bytes₁ with
  | some fault =>
    exact .inr ⟨.number fault,
      fails_of_written
      ((writtenDocument_eq_error hread₁).mpr (.inl ⟨fault, hnumber, rfl⟩)),
      fails_of_written
      ((writtenDocument_eq_error hread₂).mpr
      (.inl ⟨fault, hnumbers ▸ hnumber, rfl⟩))⟩
  | none =>
    obtain ⟨e, he, hkinds⟩ := Json.ofBytes?_alike hskeleton hd
    obtain ⟨es₁, hholds₁⟩ :=
      exists_holds (writtenDocument_eq_ok.mpr ⟨bytes₁, hread₁, hnumber, hd⟩)
    obtain ⟨es₂, hholds₂⟩ :=
      exists_holds (writtenDocument_eq_ok.mpr
        ⟨bytes₂, hread₂, hnumbers ▸ hnumber, he⟩)
    refine .inl ⟨d, es₁, e, es₂, hholds₁, hholds₂, ?_, ?_⟩
    · rw [hholds₁.outlines_eq, hholds₂.outlines_eq, hkinds]
    · rw [← Document.leafCount_map Leaf.kind d, hkinds, Document.leafCount_map]

theorem entries (h : s₁.SameButScalars s₂ file₁ file₂) :
    Outcome.Alike (fun es₁ es₂ => es₁.map Entry.outline = es₂.map Entry.outline)
      (s₁.entriesOfFile file₁) (s₂.entriesOfFile file₂) := by
  rcases h.holds_or_fails with
    ⟨_, es₁, _, es₂, hholds₁, hholds₂, houtlines, _⟩
      | ⟨failure, hfails₁, hfails₂⟩
  · exact .inl ⟨es₁, es₂, hholds₁.entries, hholds₂.entries, houtlines⟩
  · exact .inr ⟨failure, hfails₁.entries, hfails₂.entries⟩

/-- Files of one name are checked with one outcome, also where the check
fails. -/
theorem checkFile_eq (h : s₁.SameButScalars s₂ file₁ file₂)
    (hname : file₁.name = file₂.name) :
    s₁.checkFile file₁ = s₂.checkFile file₂ := by
  rcases h.holds_or_fails with
    ⟨_, es₁, _, es₂, hholds₁, hholds₂, houtlines, hcount⟩
      | ⟨failure, hfails₁, hfails₂⟩
  · have hlength := (Entries.alike_of_outlines_eq houtlines).length_eq
    rw [hholds₁.checkFile, hholds₂.checkFile, hlength, hcount, hname]
  · rw [hfails₁.check, hfails₂.check]

theorem tally (h : s₁.SameButScalars s₂ file₁ file₂) :
    Outcome.Alike (fun t₁ t₂ => ∃ entries tokens, t₁ = ⟨file₁, entries, tokens⟩
        ∧ t₂ = ⟨file₂, entries, tokens⟩)
      (Corpus.tally s₁ file₁) (Corpus.tally s₂ file₂) := by
  rcases h.holds_or_fails with
    ⟨written₁, es₁, _, es₂, hholds₁, hholds₂, houtlines, hcount⟩
      | ⟨failure, hfails₁, hfails₂⟩
  · have hlength := (Entries.alike_of_outlines_eq houtlines).length_eq
    refine .inl ⟨_, _, hholds₁.tally, hholds₂.tally, es₁.length,
      written₁.leafCount, rfl, ?_⟩
    rw [hlength, hcount]
  · exact .inr ⟨failure, hfails₁.tally, hfails₂.tally⟩

end SameButScalars

end Store

/-! ## Corpora -/

namespace Corpus

/-- Two corpora have the same files below their roots, in the same order, and
each file differs only in scalar tokens of the same kinds. -/
def SameButScalars (c₁ : Corpus) (s₁ : Store) (c₂ : Corpus) (s₂ : Store) :
    Prop :=
  ∃ names : List (List String), c₁.files = names.map c₁.root.below
    ∧ c₂.files = names.map c₂.root.below
    ∧ ∀ parts ∈ names, parts ≠ []
      ∧ s₁.SameButScalars s₂ (c₁.root.below parts) (c₂.root.below parts)

/-- The table of fields depends on the outlines alone. -/
theorem schemaTableOf_eq_of_outlines_eq {delimiter : String}
    {es es' : List Entry} (h : es.map Entry.outline = es'.map Entry.outline) :
    schemaTableOf delimiter (Groups.ofEntries es)
      = schemaTableOf delimiter (Groups.ofEntries es') := by
  have hrow : ∀ path, schemaRow delimiter ⟨path, Entries.sharing path es⟩
      = schemaRow delimiter ⟨path, Entries.sharing path es'⟩ := by
    intro path
    have halike := (Entries.alike_of_outlines_eq h).sharing path
    rw [schemaRow, schemaRow, halike.fieldType_eq, halike.length_eq,
      halike.isPlural_eq, halike.isMixed_eq]
  have hrows : (schemaTableOf delimiter (Groups.ofEntries es)).rows
      = (schemaTableOf delimiter (Groups.ofEntries es')).rows := by
    rw [schemaTableOf_rows, schemaTableOf_rows,
      Entries.sortedPaths_eq_of_outlines_eq h, funext hrow]
  exact congrArg (Table.mk _ _) hrows

namespace SameButScalars

variable {c₁ c₂ : Corpus} {s₁ s₂ : Store}

/-- For corpora that are opened the order of the files comes from their
paths. -/
theorem of_open? {root₁ root₂ : FilePath} (h₁ : open? s₁ root₁ = .ok c₁)
    (h₂ : open? s₂ root₂ = .ok c₂) {names : List (List String)}
    (hfiles₁ : c₁.files.Perm (names.map c₁.root.below))
    (hfiles₂ : c₂.files.Perm (names.map c₂.root.below))
    (hinj : ∀ a ∈ names, ∀ b ∈ names,
      "/".intercalate a = "/".intercalate b → a = b)
    (hsame : ∀ parts ∈ names,
      s₁.SameButScalars s₂ (c₁.root.below parts) (c₂.root.below parts)) :
    SameButScalars c₁ s₁ c₂ s₂ := by
  obtain ⟨sorted, hperm, hne, hsorted₁, hsorted₂⟩ :=
    names_eq_of_open? h₁ h₂ hfiles₁ hfiles₂ hinj
  refine ⟨sorted, hsorted₁, hsorted₂, fun parts hparts => ?_⟩
  exact ⟨hne parts hparts, hsame parts (hperm.mem_iff.mp hparts)⟩

theorem length_files (h : SameButScalars c₁ s₁ c₂ s₂) :
    c₁.files.length = c₂.files.length := by
  obtain ⟨names, hfiles₁, hfiles₂, _⟩ := h
  rw [hfiles₁, hfiles₂, List.length_map, List.length_map]

/-- What holds of two files that differ only in scalars holds of the files of
such corpora one by one. -/
theorem forall₂_files (h : SameButScalars c₁ s₁ c₂ s₂)
    {R : FilePath → FilePath → Prop}
    (hR : ∀ parts, parts ≠ [] →
      s₁.SameButScalars s₂ (c₁.root.below parts) (c₂.root.below parts) →
      R (c₁.root.below parts) (c₂.root.below parts)) :
    List.Forall₂ R c₁.files c₂.files := by
  obtain ⟨names, hfiles₁, hfiles₂, hnames⟩ := h
  rw [hfiles₁, hfiles₂, List.forall₂_map_left_iff, List.forall₂_map_right_iff,
    List.forall₂_same]
  intro parts hparts
  exact hR parts (hnames parts hparts).1 (hnames parts hparts).2

theorem checkFiles_eq (h : SameButScalars c₁ s₁ c₂ s₂) :
    Survey.checkFiles c₁ s₁ = Survey.checkFiles c₂ s₂ := by
  refine Outcome.forM_eq_of_forall₂
    (h.forall₂_files fun parts hparts hsame => ?_)
  rw [hsame.checkFile_eq
    (by rw [FilePath.name_below _ hparts, FilePath.name_below _ hparts])]

theorem entries (h : SameButScalars c₁ s₁ c₂ s₂) :
    Outcome.Alike (fun es₁ es₂ => es₁.map Entry.outline = es₂.map Entry.outline)
      (c₁.entries s₁) (c₂.entries s₂) := by
  rcases Outcome.alike_mapM
      (h.forall₂_files fun _ _ hsame => hsame.entries) with
    ⟨parts₁, parts₂, hparts₁, hparts₂, hrel⟩ | ⟨failure, hparts₁, hparts₂⟩
  · refine .inl ⟨_, _, entries_eq_ok hparts₁, entries_eq_ok hparts₂, ?_⟩
    show parts₁.flatten.map _ = parts₂.flatten.map _
    rw [List.map_flatten, List.map_flatten, map_eq_of_forall₂ hrel]
  · exact .inr ⟨failure, Outcome.bind_eq_error.mpr (.inl hparts₁),
      Outcome.bind_eq_error.mpr (.inl hparts₂)⟩

/-- Both corpora have one table of leaf counts, or none for one failure. -/
theorem countTable_eq (h : SameButScalars c₁ s₁ c₂ s₂) :
    c₁.countTable s₁ = c₂.countTable s₂ := by
  have hpairs : List.Forall₂ (fun f₁ f₂ => Outcome.Alike
      (fun t₁ t₂ => countRow c₁.root t₁ = countRow c₂.root t₂)
      (tally s₁ f₁) (tally s₂ f₂))
      c₁.files c₂.files := by
    refine h.forall₂_files fun parts _ hsame => ?_
    rcases hsame.tally with
      ⟨_, _, ht₁, ht₂, entries, tokens, rfl, rfl⟩ | hfailure
    · refine .inl ⟨_, _, ht₁, ht₂, ?_⟩
      show countRow _ _ = countRow _ _
      rw [countRow, countRow, FilePath.relativeText_below,
        FilePath.relativeText_below]
    · exact .inr hfailure
  rw [countTable, countTable, tallies, tallies]
  rcases Outcome.alike_mapM hpairs with
    ⟨found₁, found₂, hfound₁, hfound₂, hrows⟩ | ⟨e, he, he'⟩
  · rw [hfound₁, hfound₂]
    show Except.ok _ = Except.ok _
    rw [map_eq_of_forall₂ hrows, h.length_files]
  · rw [he, he']
    rfl

/-- Both corpora have one table of fields for every text as delimiter, or none
for one failure. -/
theorem schemaTable_eq (h : SameButScalars c₁ s₁ c₂ s₂) {delimiter : Value}
    (htext : delimiter.isText = true) :
    c₁.schemaTable delimiter s₁ = c₂.schemaTable delimiter s₂ := by
  rcases h.entries with
    ⟨es₁, es₂, hes₁, hes₂, houtlines⟩ | ⟨failure, hes₁, hes₂⟩
  · rw [schemaTable_of_entries htext hes₁, schemaTable_of_entries htext hes₂,
      schemaTableOf_eq_of_outlines_eq houtlines]
  · rw [schemaTable, schemaTable, groups, groups, hes₁, hes₂]

/-- Where all numbers are taken in, both tables are there. -/
theorem exists_tables (h : SameButScalars c₁ s₁ c₂ s₂)
    (hnumbers : ∀ file ∈ c₁.files, s₁.TakesNumbers file) :
    (∃ table, c₁.countTable s₁ = .ok table)
      ∧ ∀ delimiter : Value, delimiter.isText = true →
          ∃ table, c₁.schemaTable delimiter s₁ = .ok table := by
  have hholds : ∀ file ∈ c₁.files, ∃ written es, s₁.Holds file written es := by
    obtain ⟨names, hfiles₁, _, hnames⟩ := h
    intro file hfile
    have htakes := hnumbers file hfile
    rw [hfiles₁] at hfile
    obtain ⟨parts, hparts, rfl⟩ := List.mem_map.mp hfile
    obtain ⟨bytes₁, _, d, hread₁, _, hd, _⟩ := (hnames parts hparts).2
    exact ⟨d,
      Store.exists_holds
      (Store.writtenDocument_eq_ok.mpr ⟨bytes₁, hread₁,
        htakes bytes₁ hread₁, hd⟩)⟩
  constructor
  · have htally : ∀ file ∈ c₁.files, ∃ row,
        tally s₁ file = .ok row := fun file hfile =>
      (hholds file hfile).elim fun _ ⟨_, hholds⟩ => ⟨_, hholds.tally⟩
    obtain ⟨rows, hrows⟩ := Outcome.exists_mapM_eq_ok htally
    exact ⟨_, Outcome.bind_eq_ok.mpr ⟨rows, hrows, rfl⟩⟩
  · intro delimiter htext
    have hentries : ∀ file ∈ c₁.files, ∃ es,
        s₁.entriesOfFile file = .ok es := fun file hfile =>
      (hholds file hfile).elim fun _ ⟨es, hholds⟩ => ⟨es, hholds.entries⟩
    obtain ⟨parts, hparts⟩ := Outcome.exists_mapM_eq_ok hentries
    exact ⟨_, schemaTable_of_entries htext (entries_eq_ok hparts)⟩

end SameButScalars

end Corpus

/-! ## Runs -/

namespace Survey

/-- What follows the checks gives one survey for entries with the same
outlines. -/
theorem assemble_eq {c₁ c₂ : Corpus} {settings : Settings} {s₁ s₂ : Store}
    (htexts : settings.HasTexts) (hpass₁ : ∀ file ∈ c₁.files, s₁.Passes file)
    (hpass₂ : ∀ file ∈ c₂.files, s₂.Passes file)
    (h : Corpus.SameButScalars c₁ s₁ c₂ s₂) :
    assemble c₁ settings s₁ = assemble c₂ settings s₂ := by
  obtain ⟨survey₁, hsurvey₁⟩ := exists_assembled htexts hpass₁
  obtain ⟨survey₂, hsurvey₂⟩ := exists_assembled htexts hpass₂
  obtain ⟨es₁, naming₁, hassembled₁⟩ := assemble_eq_ok.mp hsurvey₁
  obtain ⟨es₂, naming₂, hassembled₂⟩ := assemble_eq_ok.mp hsurvey₂
  have houtlines : es₁.map Entry.outline = es₂.map Entry.outline := by
    rcases h.entries with ⟨es, es', hes, hes', houtlines⟩ | ⟨failure, hes, _⟩
    · cases hassembled₁.entries.symm.trans hes
      cases hassembled₂.entries.symm.trans hes'
      exact houtlines
    · cases hassembled₁.entries.symm.trans hes
  obtain ⟨_, _, hsame⟩ := hassembled₁.agree hassembled₂ h.length_files
    (Entries.alike_of_outlines_eq houtlines)
  rw [hsurvey₁, hsurvey₂,
    hsame (Entries.sortedPaths_eq_of_outlines_eq houtlines)]

/-- No value shows. Corpora that differ only in scalar tokens of the same kinds,
and in no number that keeps a file from being read, are surveyed with one
answer: one survey, and then files with the same bytes wherever it is written,
or one failure, of the same file and with the same counts. Their tables of leaf
counts are one, and so are their tables of fields; they are there where all
numbers are taken in. -/
theorem runs_agree {c₁ c₂ : Corpus} {settings : Settings} {m₁ m₂ : Machine}
    (htexts : settings.HasTexts)
    (hinterrupt : m₁.console.interruptsNext = m₂.console.interruptsNext)
    (h : Corpus.SameButScalars c₁ m₁.store c₂ m₂.store) :
    ((job c₁ settings).runOn m₁).1 = ((job c₂ settings).runOn m₂).1
      ∧ (∀ survey₁ survey₂, ((job c₁ settings).runOn m₁).1 = .ok survey₁ →
          ((job c₂ settings).runOn m₂).1 = .ok survey₂ →
          survey₁.report = survey₂.report ∧ survey₁.draft = survey₂.draft
            ∧ WrittenAlike survey₁.report.toValue survey₂.report.toValue
            ∧ WrittenAlike survey₁.draft.toValue survey₂.draft.toValue)
      ∧ c₁.countTable m₁.store = c₂.countTable m₂.store
      ∧ (∀ delimiter : Value, delimiter.isText = true →
          c₁.schemaTable delimiter m₁.store = c₂.schemaTable delimiter m₂.store)
      ∧ ((∀ file ∈ c₁.files, m₁.store.TakesNumbers file) →
          (∃ table, c₁.countTable m₁.store = .ok table)
            ∧ ∀ delimiter : Value, delimiter.isText = true →
                ∃ table, c₁.schemaTable delimiter m₁.store = .ok table) := by
  have hanswer : ((job c₁ settings).runOn m₁).1
      = ((job c₂ settings).runOn m₂).1 := by
    rw [answer_runOn_job, answer_runOn_job, h.checkFiles_eq, hinterrupt]
    -- lost leaves fail both surveys in the checks; with texts as settings
    -- nothing fails after them
    cases hfiles : checkFiles c₂ m₂.store with
    | error failure => rfl
    | ok _ =>
      have hpass₁ := checkFiles_eq_ok.mp (h.checkFiles_eq.trans hfiles)
      rw [assemble_eq htexts hpass₁ (checkFiles_eq_ok.mp hfiles) h]
  refine ⟨hanswer, fun survey₁ survey₂ h₁ h₂ => ?_, h.countTable_eq,
    fun _ => h.schemaTable_eq, h.exists_tables⟩
  cases h₁.symm.trans (hanswer.trans h₂)
  exact ⟨rfl, rfl, writtenAlike_refl _, writtenAlike_refl _⟩

end Survey

/-! ## Two texts with one skeleton -/

namespace Store

def valuedText : String :=
  "\x7b\"a\": 1, \"b\": [\"x\", true]\x7d"

/-- The same object with another value for each scalar. -/
def revaluedText : String :=
  "\x7b\"a\": -20, \"b\": [\"b\", false]\x7d"

def valued : Store := ofText "x.json" valuedText

def revalued : Store := ofText "x.json" revaluedText

theorem skeleton_valuedText :
    Json.skeletonOfBytes? valuedText.toUTF8
      = Json.skeletonOfBytes? revaluedText.toUTF8 := by
  have hlexemes : Json.Lexeme.ofChars? valuedText.toList
      = some [.openObject, .quoted ['a'], .colon,
      .bare ['1'], .comma, .quoted ['b'], .colon, .openArray,
        .quoted ['x'], .comma,
      .bare ['t', 'r', 'u', 'e'], .closeArray, .closeObject] := rfl
  have hlexemes' : Json.Lexeme.ofChars? revaluedText.toList
      = some [.openObject, .quoted ['a'], .colon,
      .bare ['-', '2', '0'], .comma, .quoted ['b'], .colon, .openArray,
        .quoted ['b'], .comma,
      .bare ['f', 'a', 'l', 's', 'e'], .closeArray, .closeObject] := rfl
  rw [Json.skeletonOfBytes?_toUTF8 (Json.skipMark_toUTF8 rfl rfl) hlexemes,
    Json.skeletonOfBytes?_toUTF8 (Json.skipMark_toUTF8 rfl rfl) hlexemes']
  rfl

theorem ofBytes?_valuedText :
    Json.ofBytes? valuedText.toUTF8 = .ok
      (.object [("a", .leaf (.integer 1)),
        ("b", .array [.leaf (.text "x"), .leaf (.boolean true)])]) :=
  Json.ofBytes?_toUTF8 (Json.skipMark_toUTF8 rfl rfl) rfl

end Store

theorem Store.refusedNumber?_valuedText :
    Json.refusedNumber? valuedText.toUTF8 = none
      ∧ Json.refusedNumber? revaluedText.toUTF8 = none :=
  ⟨(Json.refusedNumber?_toUTF8 (Json.skipMark_toUTF8 rfl rfl)).trans rfl,
    (Json.refusedNumber?_toUTF8 (Json.skipMark_toUTF8 rfl rfl)).trans rfl⟩

theorem Corpus.sameButScalars_valued :
    SameButScalars (ofNames ["x.json"]) .valued (ofNames ["x.json"])
      .revalued := by
  refine ⟨[["x.json"]], rfl, rfl, fun parts hparts => ?_⟩
  cases List.mem_singleton.mp hparts
  exact ⟨List.cons_ne_nil _ _, Store.valuedText.toUTF8,
    Store.revaluedText.toUTF8, _, rfl, rfl, Store.ofBytes?_valuedText,
    Store.skeleton_valuedText,
    Store.refusedNumber?_valuedText.1.trans
    Store.refusedNumber?_valuedText.2.symm⟩

/-- Both texts have one survey. -/
theorem Survey.runs_agree_on_revalued :
    ∃ survey, ((job (.ofNames ["x.json"]) .usual).runOn
      ⟨.valued, .fresh none, []⟩).1 = .ok survey
      ∧ ((job (.ofNames ["x.json"]) .usual).runOn
          ⟨.revalued, .fresh none, []⟩).1 = .ok survey := by
  have hpass : ∀ file ∈ (Corpus.ofNames ["x.json"]).files,
      Store.valued.Passes file := by
    intro file hfile
    cases List.mem_singleton.mp hfile
    have hread : Store.valued.read ⟨.working, ["x.json"]⟩
        = .ok Store.valuedText.toUTF8 :=
      rfl
    have hwritten := Store.writtenDocument_eq_ok.mpr
      ⟨_, hread, Store.refusedNumber?_valuedText.1, Store.ofBytes?_valuedText⟩
    obtain ⟨_, _, _, hpass⟩ :=
      Store.exists_holds_of_distinct hwritten (by decide)
    exact hpass
  obtain ⟨survey, hsurvey⟩ :=
    @answer_of_passes _ .usual ⟨.valued, .fresh none, []⟩ ⟨rfl, rfl⟩ hpass
  obtain ⟨hanswer, _⟩ :=
    @runs_agree _ _ .usual ⟨.valued, .fresh none, []⟩
      ⟨.revalued, .fresh none, []⟩ ⟨rfl, rfl⟩ rfl
      Corpus.sameButScalars_valued
  exact ⟨survey, hsurvey, hanswer.symm.trans hsurvey⟩

/-- A number does show where it is not taken in: of two texts that are one
number each, one is surveyed and the other is not. -/
theorem Survey.great_number_shows :
    let read :=
      fun text => (Store.ofText "d.json" text).read ⟨.working, ["d.json"]⟩
    let answer := fun text =>
      ((job (.ofNames ["d.json"]) .usual).runOn
        ⟨.ofText "d.json" text, .fresh none, []⟩).1
    read "1" = .ok "1".toUTF8
      ∧ read Store.greatText = .ok Store.greatText.toUTF8
      ∧ (∃ d, Json.ofBytes? "1".toUTF8 = .ok d)
      ∧ (∃ d, Json.ofBytes? Store.greatText.toUTF8 = .ok d)
      ∧ Json.skeletonOfBytes? "1".toUTF8
          = Json.skeletonOfBytes? Store.greatText.toUTF8
      ∧ (∃ survey, answer "1" = .ok survey)
      ∧ answer Store.greatText = .error (.number .outOfRange) := by
  intro read answer
  have hone : Json.Lexeme.ofChars? "1".toList = some [.bare ['1']] := rfl
  have hgreat : Json.Lexeme.ofChars? Store.greatText.toList
      = some [.bare Store.greatText.toList] := rfl
  have hwritten :=
    @Store.writtenDocument_of_text (.ofText "d.json" "1")
      ⟨.working, ["d.json"]⟩ "1" (.leaf (.integer 1)) rfl
      (Json.skipMark_toUTF8 rfl rfl) rfl rfl
  obtain ⟨_, _, _, hpass⟩ := Store.exists_holds_of_distinct hwritten rfl
  have hfails := @Store.fails_of_greatText (.ofText "d.json" Store.greatText)
    ⟨.working, ["d.json"]⟩ rfl
  refine ⟨rfl, rfl,
    ⟨_, Json.ofBytes?_toUTF8 (Json.skipMark_toUTF8 rfl rfl) rfl⟩,
    Store.ofBytes?_greatText, ?_, exists_survey_of_passes hpass, ?_⟩
  · rw [Json.skeletonOfBytes?_toUTF8 (Json.skipMark_toUTF8 rfl rfl) hone,
      Json.skeletonOfBytes?_toUTF8 (Json.skipMark_toUTF8 rfl rfl) hgreat]
    rfl
  · refine answer_of_checkFiles_error (checkFiles_eq_error.mpr ?_)
    exact ⟨[], ⟨.working, ["d.json"]⟩, [], rfl, by simp, hfails.check⟩

end LeafSurvey
