import LeafSurvey.Proofs.Files

/-!
# Leaf parity of a file

The check of a file compares two numbers: the entries of the document as read,
and the scalar tokens of the text. Here is what the comparison means for the
entries themselves.

* `checkFile_parity`: the token count exceeds the entry count by the number of
  leaves that a repeated key overwrites, so the check fails exactly where a
  scalar is lost, and with these two counts;
* `entries_perm_scalars`: where the check succeeds, the entries are the scalar
  tokens of the text in some order, with path, value and mark; in the same order
  where no key is repeated.
-/

namespace LeafSurvey.Store

/-- Every file that can be read holds a document, or fails in every pass alike:
for a number that is not taken in, or else for a fault of its text. The scalar
tokens of a document that it holds are the leaves as written: those of the
document as read and those that overwriting loses. So they exceed the entries
by the lost ones, and the check fails, with the two counts, exactly if there
are such. -/
theorem checkFile_parity (s : Store) (p : FilePath) (bytes : ByteArray)
    (hread : s.read p = .ok bytes) :
    (∃ fault, Json.refusedNumber? bytes = some fault
      ∧ s.document p = .error (.number fault)
      ∧ s.countTokens p = .error (.number fault)
      ∧ s.checkFile p = .error (.number fault)) ∨
    Json.refusedNumber? bytes = none
      ∧ ((∃ fault, Json.ofBytes? bytes = .error fault
          ∧ s.document p = .error (.document p fault)
          ∧ s.countTokens p = .error (.document p fault)
          ∧ s.checkFile p = .error (.document p fault)) ∨
        ∃ written es, Json.ofBytes? bytes = .ok written
          ∧ Json.scalarsOfBytes? bytes = some (written.leaves [] false)
          ∧ (written.leaves [] false).Perm
              (written.collapse.leaves [] false ++ written.lost [] false)
          ∧ s.document p = .ok written.collapse
          ∧ s.entriesOfFile p = .ok es
          ∧ s.countTokens p = .ok (written.leaves [] false).length
          ∧ (written.leaves [] false).length
              = es.length + (written.lost [] false).length
          ∧ (s.checkFile p
                = .error (.leafMismatch p.name es.length
                    (written.leaves [] false).length)
              ↔ written.lost [] false ≠ [])
          ∧ (s.checkFile p = .ok es.length ↔ written.lost [] false = [])) := by
  cases hw : s.writtenDocument p with
  | error failure =>
    have hfails := fails_of_written hw
    rcases (writtenDocument_eq_error hread).mp hw with
      ⟨fault, hnumber, rfl⟩ | ⟨fault, hnumbers, hfault, rfl⟩
    · exact .inl ⟨fault, hnumber, hfails.document, hfails.tokens, hfails.check⟩
    · exact .inr ⟨hnumbers,
        .inl ⟨fault, hfault, hfails.document, hfails.tokens, hfails.check⟩⟩
  | ok written =>
    obtain ⟨es, hholds⟩ := exists_holds hw
    obtain ⟨bytes', hread', hnumbers, hbytes⟩ := writtenDocument_eq_ok.mp hw
    cases hread.symm.trans hread'
    have hscalars := Json.scalarsOfBytes?_eq_leaves hbytes
    have hlength := Document.length_leaves [] false written
    refine .inr ⟨hnumbers,
      .inr ⟨written, es, hbytes, hscalars,
      Document.leaves_perm [] false written, hholds.document, hholds.entries,
      hlength ▸ hholds.tokens, hlength ▸ hholds.leafCount_eq, ?_, ?_⟩⟩
    · rw [hlength, hholds.checkFile, ne_eq, ← hholds.length_eq_iff]
      by_cases heq : es.length = written.leafCount
      · simp [heq]
      · simp [heq]
    · rw [hholds.checkFile, ← hholds.length_eq_iff]
      by_cases heq : es.length = written.leafCount
      · simp [heq]
      · simp [heq]

/-- An object that repeats a key, also inside an overwritten value. -/
def nestedText : String :=
  "\x7b\"a\": \x7b\"b\": 1, \"b\": [2, 3]\x7d, \"a\": null\x7d"

/-- Repeats inside a repeat: three of four scalars are lost, and the check names
both counts. -/
theorem checkFile_nested_repeats :
    (ofText "d.json" nestedText).checkFile ⟨.working, ["d.json"]⟩
      = .error (.leafMismatch "d.json" 1 4) := by
  have hd : Json.ofBytes? nestedText.toUTF8
      = .ok (.object [("a",
          .object [("b", .leaf (.integer 1)),
          ("b", .array [.leaf (.integer 2), .leaf (.integer 3)])]),
          ("a", .leaf .null)]) :=
    Json.ofBytes?_toUTF8 (Json.skipMark_toUTF8 rfl rfl) rfl
  have hnumbers : Json.refusedNumber? nestedText.toUTF8 = none :=
    Json.refusedNumber?_toUTF8 (Json.skipMark_toUTF8 rfl rfl)
  rcases checkFile_parity (ofText "d.json" nestedText)
      ⟨.working, ["d.json"]⟩ _ rfl with
    ⟨fault, hnumber, _⟩ | ⟨_,
      ⟨fault, hfault, _⟩ | ⟨written, es, hw, _, _, _, _, _, hn, herr, _⟩⟩
  · cases hnumbers.symm.trans hnumber
  · cases hd.symm.trans hfault
  · cases hd.symm.trans hw
    have hes : es.length = 1 := by
      rw [show (Document.leaves [] false _).length = 4 from rfl,
        show (Document.lost [] false _).length = 3 from by decide] at hn
      omega
    rw [hes] at herr
    exact herr.mpr (by decide)

/-- A text of JSON alone does not make a document that is read: both passes end
at the number, and neither for a fault of the text. -/
theorem great_number_is_no_fault :
    let p : FilePath := ⟨.working, ["doc.json"]⟩
    (ofText "doc.json" greatText).read p = .ok greatText.toUTF8
      ∧ (∃ d, Json.ofBytes? greatText.toUTF8 = .ok d)
      ∧ ¬((∃ fault, (ofText "doc.json" greatText).document p
          = .error (.document p fault)
            ∧ (ofText "doc.json" greatText).countTokens p
                = .error (.document p fault))
          ∨ ∃ d n, (ofText "doc.json" greatText).document p = .ok d
            ∧ (ofText "doc.json" greatText).countTokens p = .ok n) := by
  intro p
  have hread : (ofText "doc.json" greatText).read p
      = .ok greatText.toUTF8 :=
    rfl
  have hfails := fails_of_greatText hread
  refine ⟨hread, ofBytes?_greatText, ?_⟩
  rw [hfails.document, hfails.tokens]
  rintro (⟨fault, h, _⟩ | ⟨d, n, h, _⟩) <;> cases h

/-- Where the check of a file succeeds nothing is lost: the entries are the
scalar tokens of the text, each with the keys that enclose it, its exact value
and its mark, and no others. -/
theorem entries_perm_scalars {s : Store} {p : FilePath} {n : Nat}
    (h : s.checkFile p = .ok n) :
    ∃ bytes written scalars expected es, s.read p = .ok bytes
      ∧ Json.ofBytes? bytes = .ok written
      ∧ Json.scalarsOfBytes? bytes = some scalars
      ∧ scalars.mapM Placed.entry? = .ok expected
      ∧ s.entriesOfFile p = .ok es
      ∧ es.length = n
      ∧ es.Perm expected
      ∧ (written.hasDistinctKeys = true → es = expected) := by
  obtain ⟨written, es, hholds, hes, hn⟩ := checkFile_eq_ok.mp h
  obtain ⟨bytes, hread, hbytes, hscalars⟩ := hholds.scalars
  obtain ⟨expected, hexpected⟩ :=
    Outcome.exists_mapM_eq_ok (Json.ofBytes?_exact hbytes)
  refine ⟨bytes, written, _, expected, es, hread, hbytes, hscalars, hexpected,
    hholds.entries, hes, ?_, ?_⟩
  · have hlost : written.lost [] false = [] :=
      hholds.length_eq_iff.mp (hes.trans hn.symm)
    have hleaves := Document.leaves_perm [] false written
    rw [hlost, List.append_nil] at hleaves
    exact Outcome.mapM_perm hleaves.symm hholds.entries_eq hexpected
  · intro hkeys
    have hentries := hholds.entries_eq
    rw [Document.collapse_eq_self hkeys, hexpected] at hentries
    exact (Except.ok.inj hentries).symm

/-- An object with an overwritten value that holds no scalar. -/
def movedText : String :=
  "\x7b\"a\": [], \"b\": 1, \"a\": 2\x7d"

/-- An overwritten value that holds no scalar loses nothing, but its member
stands first: the entries come in another order than the scalar tokens. -/
theorem entries_perm_scalars_of_moved :
    (ofText "d.json" movedText).checkFile ⟨.working, ["d.json"]⟩ = .ok 2
      ∧ ∃ es, (ofText "d.json" movedText).entriesOfFile ⟨.working, ["d.json"]⟩
          = .ok es
        ∧ es.Perm [⟨["b"], .number (.ofInt 1), false⟩,
            ⟨["a"], .number (.ofInt 2), false⟩] := by
  have hmark : Json.skipMark movedText.toUTF8 = movedText.toUTF8 :=
    Json.skipMark_toUTF8 rfl rfl
  have hd : Json.ofChars? movedText.toList
      = some (.object [("a", .array []), ("b", .leaf (.integer 1)),
          ("a", .leaf (.integer 2))]) := by
    rfl
  have hcheck : (ofText "d.json" movedText).checkFile ⟨.working, ["d.json"]⟩
      = .ok 2 :=
    checkFile_of_text rfl hmark rfl hd (by decide)
  obtain ⟨bytes, written, scalars, expected, es, hread, _, hscalars, hexpected,
      hes, _, hperm, _⟩ := entries_perm_scalars hcheck
  cases hread
  rw [Json.scalarsOfBytes?_eq_leaves (Json.ofBytes?_toUTF8 hmark hd)]
    at hscalars
  cases hscalars
  cases hexpected
  exact ⟨hcheck, es, hes, hperm⟩

end LeafSurvey.Store
