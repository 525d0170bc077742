import LeafSurvey.Proofs.Evolution
import LeafSurvey.Proofs.Forms

/-!
# Writing again

Where a file has been placed, the directories above it are there, and stay.
Placing a file there once more makes no directory and cannot fail; it puts the
new bytes in place of the old ones.

* `ensureDirectories_of_directory`: a directory that is there is not made;
* `Evolves.place_again`: placing a file once more, whatever else has been
  written since;
* `writeValue_again`: two outputs that are written once more leave everything as
  it is, but for a draft that has changed.
-/

namespace LeafSurvey

namespace Store

/-! ## Directories that are there -/

/-- A path leads to a directory. -/
def HasDirectory (s : Store) (p : FilePath) : Prop :=
  ∃ q, s.resolve p = .ok q ∧ s.lookup q = some .directory

variable {s t u : Store} {p : FilePath}

theorem HasDirectory.mono (h : s.HasDirectory p)
    (hkeeps : s.KeepsDirectories t) : t.HasDirectory p := by
  obtain ⟨q, hq, hdirectory⟩ := h
  exact ⟨q, hkeeps.resolve hq, hkeeps q hdirectory⟩

theorem HasDirectory.isDirectory (h : s.HasDirectory p) :
    s.isDirectory p = true := by
  obtain ⟨q, hq, hdirectory⟩ := h
  simp [Store.isDirectory, find?, hq, hdirectory]

theorem hasDirectory_of_isDirectory (h : s.isDirectory p = true) :
    s.HasDirectory p := by
  unfold isDirectory find? at h
  cases hq : s.resolve p with
  | error problem => cases problem <;> simp [hq] at h
  | ok q =>
    refine ⟨q, hq, ?_⟩
    rw [hq] at h
    cases hfound : s.lookup q with
    | none => simp [hfound] at h
    | some c => cases c <;> simp_all

/-- A directory is not made where one is. -/
theorem makeDirectory_of_directory (h : s.HasDirectory p) :
    s.makeDirectory p = .error ⟨.exists, p⟩ := by
  obtain ⟨q, hq, hdirectory⟩ := h
  simp [makeDirectory, hq, hdirectory]

theorem settled_of_directory (h : s.HasDirectory p) :
    s.settled p ⟨.exists, p⟩ = (.ok (), s) := by
  simp [settled, h.isDirectory]

theorem ensureDirectories_of_directory (h : s.HasDirectory p) :
    s.ensureDirectories p = (.ok (), s) := by
  have hmake := makeDirectory_of_directory h
  have hsettled := settled_of_directory h
  unfold ensureDirectories
  obtain ⟨anchor, parts⟩ := p
  cases hparts : parts.reverse with
  | nil =>
    cases List.reverse_eq_nil_iff.mp hparts
    simp [ensureReversed, ensureDirectory, hmake, hsettled]
  | cons part above =>
    have hp : (part :: above).reverse = parts := by
      rw [← hparts, List.reverse_reverse]
    rw [ensureReversed]
    simp only [hp, hmake, hsettled]
    simp

theorem hasDirectory_makeDirectory {made : Store}
    (h : s.makeDirectory p = .ok made) : made.HasDirectory p := by
  obtain ⟨place, hplace, hnone, rfl⟩ := makeDirectory_eq_ok h
  have hne : place ≠ [] := by
    rintro rfl
    cases hnone
  have hkeeps : s.KeepsDirectories (s.put place .directory) :=
    keepsDirectories_put .directory (by simp [hnone])
  exact ⟨place, hkeeps.resolve hplace, by rw [lookup_put _ hne, if_pos rfl]⟩

theorem hasDirectory_settled {fault : FileFault}
    (h : (s.settled p fault).1 = .ok ()) :
    (s.settled p fault).2.HasDirectory p := by
  unfold settled at h ⊢
  split
  · rename_i hforgiven
    exact hasDirectory_of_isDirectory hforgiven.2
  · rename_i hnot
    rw [if_neg hnot] at h
    cases h

theorem hasDirectory_ensureDirectory (h : (s.ensureDirectory p).1 = .ok ()) :
    (s.ensureDirectory p).2.HasDirectory p := by
  unfold ensureDirectory at h ⊢
  cases hmade : s.makeDirectory p with
  | ok made => exact hasDirectory_makeDirectory hmade
  | error fault =>
    simp only [hmade] at h
    by_cases hmissing : fault.problem = .missing
    · simp [hmissing] at h
    · simp only [hmissing, if_false] at h ⊢
      exact hasDirectory_settled h

/-- What has been made is there. -/
theorem hasDirectory_ensureReversed {anchor : Anchor} {reversed : List String}
    (h : (s.ensureReversed anchor reversed).1 = .ok ()) :
    (s.ensureReversed anchor reversed).2.HasDirectory
      ⟨anchor, reversed.reverse⟩ := by
  fun_induction ensureReversed s anchor reversed with
  | case1 => exact hasDirectory_ensureDirectory h
  | case2 part above p made hmade => exact hasDirectory_makeDirectory hmade
  | case3 part above p fault hfault hmissing made hmade ih =>
    exact hasDirectory_ensureDirectory h
  | case4 => cases h
  | case5 part above p fault hfault hpresent => exact hasDirectory_settled h

/-! ## Files that have been placed -/

/-- Where a file has been placed, one can be placed again, and nothing else
changes. -/
theorem Evolves.place_again {writable : Location → Prop} {bytes : ByteArray}
    (h : t.Evolves writable u) (hplaced : s.place p bytes = (.ok (), t))
    (bytes' : ByteArray) :
    u.place p bytes' = (.ok (), u.put p.location (.file bytes')) := by
  obtain ⟨made, hmade, hwrite⟩ := place_eq_ok.mp hplaced
  obtain ⟨place, hreceived⟩ := receives_place hplaced
  have hparent : t.HasDirectory p.parent := by
    have hdirectory := hasDirectory_ensureReversed (congrArg Prod.fst hmade)
    unfold ensureDirectories at hmade
    rw [hmade, List.reverse_reverse] at hdirectory
    obtain ⟨place', hfile⟩ := receives_write hwrite
    exact hdirectory.mono hfile.keepsDirectories
  have hthere :=
    ensureDirectories_of_directory (hparent.mono h.keepsDirectories)
  have hresolve := h.keepsDirectories.resolve hreceived.resolve
  obtain ⟨bytes'', hfile, _⟩ := h.lookup_file hreceived.lookup
  refine place_eq_ok.mpr ⟨u, hthere,
    write_eq_ok.mpr ⟨place, hresolve, by simp [hfile], ?_⟩⟩
  rw [resolve_eq_location hresolve]

end Store

namespace Survey

/-- Two outputs that have been written are written once more, the draft with
another value if that has a form. Then only the draft has changed, and with the
same value nothing has. -/
theorem writeValue_again {report draft : FilePath} {v w w' : Value}
    {s made left : Store} (hreport : writeValue report v s = (.ok (), made))
    (hdraft : writeValue draft w made = (.ok (), left))
    (hform : w'.hasForm = true) :
    ∃ made' left', writeValue report v left = (.ok (), made')
      ∧ writeValue draft w' made' = (.ok (), left')
      ∧ (∀ q, q ≠ draft.location → left'.lookup q = left.lookup q)
      ∧ (w' = w → ∀ q, left'.lookup q = left.lookup q) := by
  obtain ⟨hplaced, hwhole⟩ := writeValue_eq_ok.mp hreport
  obtain ⟨hplaced', _⟩ := writeValue_eq_ok.mp hdraft
  obtain ⟨reportPlace, hfirst⟩ := Store.receives_place hplaced
  obtain ⟨draftPlace, hsecond⟩ := Store.receives_place hplaced'
  obtain ⟨hreportPlace, hkept, _⟩ := hfirst.followed hsecond
  cases Store.resolve_eq_location hreportPlace
  cases Store.resolve_eq_location hsecond.resolve
  -- the report is put in its place, and then the draft in its own
  have hdrafted : made.Evolves (· = draft.location) left := by
    have h := made.evolves_place draft (fileBytes w)
    rwa [hplaced'] at h
  have hagain := hdrafted.place_again hplaced (fileBytes v)
  have hreported := left.evolves_place report (fileBytes v)
  rw [hagain] at hreported
  have hagain' := hreported.place_again hplaced' (fileBytes w')
  have hothers : ∀ q, q ≠ draft.location →
      ((left.put report.location (.file (fileBytes v))).put draft.location
        (.file (fileBytes w'))).lookup q = left.lookup q := by
    intro q hq'
    rw [Store.lookup_put _ hsecond.ne_nil, if_neg hq',
      Store.lookup_put _ hfirst.ne_nil]
    by_cases hq : q = report.location
    · rw [if_pos hq, hq, hkept (hq ▸ hq')]
    · rw [if_neg hq]
  refine ⟨_, _, writeValue_eq_ok.mpr ⟨hagain, hwhole⟩,
    writeValue_eq_ok.mpr ⟨hagain', (Json.broken_fileText w').mpr hform⟩,
    hothers, fun hw q => ?_⟩
  by_cases hq' : q = draft.location
  · rw [Store.lookup_put _ hsecond.ne_nil, if_pos hq', hq', hsecond.lookup, hw]
  · exact hothers q hq'

end Survey

end LeafSurvey
