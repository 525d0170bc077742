import LeafSurvey.Store

/-!
# What placing a file changes

A file is placed in two steps: the missing directories above it are made, and
then the file is written. Neither step takes a directory away, so every path
that led somewhere leads there afterwards.

* `KeepsDirectories.resolve`: where directories are kept, paths lead where they
  led;
* `leadsTo_ensureDirectories`: making directories, whether it succeeds or not,
  adds directories on the way to the path and nothing else;
* `receives_place`: a file that has been placed is found under its path, and
  apart from it only directories above it are new.
-/

namespace LeafSurvey.Store

/-! ## Paths in a growing store -/

/-- Every directory of one store is a directory of another. -/
def KeepsDirectories (s t : Store) : Prop :=
  ∀ q, s.lookup q = some .directory → t.lookup q = some .directory

namespace KeepsDirectories

variable {s t : Store}

/-- Names that lead somewhere pass through directories only. -/
theorem follow (h : s.KeepsDirectories t) {base target : Location}
    {names : List String} (hnames : s.follow base names = .ok target) :
    t.follow base names = .ok target := by
  fun_induction Store.follow s base names with
  | case1 base => exact hnames
  | case2 base rest ih => rw [Store.follow, ih hnames]
  | case3 base name rest hup hlong => cases hnames
  | case4 base name rest hup hlong hlast =>
    rw [Store.follow, if_neg hlong, if_pos hlast]
    · exact hnames
    · exact hup
  | case5 base name rest hup hlong hmore hdirectory ih =>
    rw [Store.follow, if_neg hlong, if_neg hmore, h _ hdirectory]
    · exact ih hnames
    · exact hup
  | case6 => cases hnames
  | case7 => cases hnames

theorem resolve (h : s.KeepsDirectories t) {p : FilePath} {place : Location}
    (hp : s.resolve p = .ok place) : t.resolve p = .ok place := by
  unfold Store.resolve at hp ⊢
  split at hp
  · cases hp
  split at hp
  · cases hp
  rename_i hnull hlong
  rw [if_neg hnull, if_neg hlong]
  exact h.follow hp

end KeepsDirectories

/-- A content that is put where no directory is keeps all directories. -/
theorem keepsDirectories_put {s : Store} {place : Location} (c : Content)
    (hplace : s.lookup place ≠ some .directory) :
    s.KeepsDirectories (s.put place c) := by
  intro q hq
  have hne : place ≠ [] := by
    rintro rfl
    exact hplace rfl
  have hother : q ≠ place := by
    rintro rfl
    exact hplace hq
  rw [lookup_put s hne, if_neg hother, hq]

/-! ## Locations that stay or are made -/

section Kept

variable {s t u : Store} {q : Location} {c : Content} {led led' : Prop}

theorem lookup_of_kept (h : t.lookup q = s.lookup q ∨ s.lookup q = none ∧ led)
    (hq : s.lookup q = some c) : t.lookup q = some c := by
  rcases h with hsame | ⟨hnone, _⟩
  · rw [hsame, hq]
  · rw [hq] at hnone
    cases hnone

/-- A location that twice stays or becomes a directory stays or becomes one. -/
theorem kept_trans
    (h : t.lookup q = s.lookup q ∨ s.lookup q = none
      ∧ t.lookup q = some .directory ∧ led)
    (hu : u.lookup q = t.lookup q ∨ t.lookup q = none
      ∧ u.lookup q = some .directory ∧ led') :
    u.lookup q = s.lookup q
      ∨ s.lookup q = none ∧ u.lookup q = some .directory ∧ (led ∨ led') := by
  rcases h with hbefore | ⟨hnone, hmade, hled⟩
  · rw [hbefore] at hu
    exact hu.imp_right fun ⟨hnone, hmade, hled⟩ => ⟨hnone, hmade, .inr hled⟩
  · exact .inr ⟨hnone, lookup_of_kept hu hmade, .inl hled⟩

end Kept

/-! ## Making directories -/

/-- A path, or one that it continues, names a location. -/
def Leads (s : Store) (p : FilePath) (q : Location) : Prop :=
  ∃ front, front <+: p.parts ∧ s.resolve ⟨p.anchor, front⟩ = .ok q

theorem Leads.mono {s t : Store} {p : FilePath} {q : Location} (h : s.Leads p q)
    (hkeeps : s.KeepsDirectories t) : t.Leads p q := by
  obtain ⟨front, hfront, hresolve⟩ := h
  exact ⟨front, hfront, hkeeps.resolve hresolve⟩

/-- One store is another with nothing but new directories on the way to a
path. -/
def LeadsTo (s : Store) (p : FilePath) (t : Store) : Prop :=
  ∀ q, t.lookup q = s.lookup q ∨ s.lookup q = none
    ∧ t.lookup q = some .directory ∧ t.Leads p q

namespace LeadsTo

variable {s t u : Store} {p : FilePath}

theorem refl (s : Store) (p : FilePath) : s.LeadsTo p s :=
  fun _ => .inl rfl

theorem keepsDirectories (h : s.LeadsTo p t) : s.KeepsDirectories t :=
  fun q => lookup_of_kept (h q)

/-- First the way to a path is made, and then the way to one that continues
it. -/
theorem trans {anchor : Anchor} {front parts : List String}
    (h : s.LeadsTo ⟨anchor, front⟩ t) (hu : t.LeadsTo ⟨anchor, parts⟩ u)
    (hfront : front <+: parts) : s.LeadsTo ⟨anchor, parts⟩ u := by
  intro q
  refine (kept_trans (h q) (hu q)).imp_right fun ⟨hnone, hmade, hleads⟩ =>
    ⟨hnone, hmade, ?_⟩
  rcases hleads with ⟨front', hprefix, hresolve⟩ | hleads
  · exact ⟨front', hprefix.trans hfront, hu.keepsDirectories.resolve hresolve⟩
  · exact hleads

end LeadsTo

theorem makeDirectory_eq_ok {s made : Store} {p : FilePath}
    (h : s.makeDirectory p = .ok made) :
    ∃ place, s.resolve p = .ok place ∧ s.lookup place = none
      ∧ made = s.put place .directory := by
  unfold makeDirectory at h
  split at h
  · cases h
  rename_i place hplace
  split at h
  · cases h
  rename_i hnone
  cases h
  exact ⟨place, hplace, hnone, rfl⟩

theorem leadsTo_makeDirectory {s made : Store} {p : FilePath}
    (h : s.makeDirectory p = .ok made) :
    s.LeadsTo p made := by
  obtain ⟨place, hresolve, hnone, rfl⟩ := makeDirectory_eq_ok h
  have hne : place ≠ [] := by
    rintro rfl
    cases hnone
  have hfree : s.lookup place ≠ some .directory := by simp [hnone]
  intro q
  rw [lookup_put s hne]
  by_cases hq : q = place
  · subst hq
    refine .inr ⟨hnone, by simp, p.parts, List.prefix_refl _, ?_⟩
    exact (keepsDirectories_put .directory hfree).resolve hresolve
  · simp [hq]

theorem leadsTo_settled (s : Store) (p : FilePath) (fault : FileFault) :
    s.LeadsTo p (s.settled p fault).2 := by
  unfold settled
  split <;> exact .refl s p

theorem leadsTo_ensureDirectory (s : Store) (p : FilePath) :
    s.LeadsTo p (s.ensureDirectory p).2 := by
  unfold ensureDirectory
  cases h : s.makeDirectory p with
  | ok made => exact leadsTo_makeDirectory h
  | error fault =>
    by_cases hmissing : fault.problem = .missing
    · simpa [hmissing] using LeadsTo.refl s p
    · simpa [hmissing] using leadsTo_settled s p fault

theorem leadsTo_ensureReversed (s : Store) (anchor : Anchor)
    (reversed : List String) :
    s.LeadsTo
      ⟨anchor, reversed.reverse⟩ (s.ensureReversed anchor reversed).2 := by
  fun_induction ensureReversed s anchor reversed with
  | case1 => exact leadsTo_ensureDirectory s _
  | case2 part above p made hmade => exact leadsTo_makeDirectory hmade
  -- the directory above is made first, and this one in what has come of it
  | case3 part above p fault hfault hmissing made hmade ih =>
    rw [hmade] at ih
    exact ih.trans (leadsTo_ensureDirectory made p) (by simp)
  | case4 part above p fault hfault hmissing f made hmade ih =>
    rw [hmade] at ih
    exact ih.trans (.refl made p) (by simp)
  | case5 part above p fault => exact leadsTo_settled s p fault

theorem leadsTo_ensureDirectories (s : Store) (p : FilePath) :
    s.LeadsTo p (s.ensureDirectories p).2 := by
  have h := leadsTo_ensureReversed s p.anchor p.parts.reverse
  rwa [List.reverse_reverse] at h

/-! ## Writing files -/

theorem write_eq_ok {s written : Store} {p : FilePath} {bytes : ByteArray} :
    s.write p bytes = .ok written ↔ ∃ place, s.resolve p = .ok place
      ∧ s.lookup place ≠ some .directory
      ∧ written = s.put place (.file bytes) := by
  unfold write
  cases hplace : s.resolve p with
  | error problem => simp
  | ok place =>
    simp only [Except.ok.injEq, exists_eq_left']
    cases hfound : s.lookup place with
    | none => simp [eq_comm]
    | some c => cases c <;> simp [eq_comm]

theorem place_eq_ok {s left : Store} {p : FilePath} {bytes : ByteArray} :
    s.place p bytes = (.ok (), left)
      ↔ ∃ made, s.ensureDirectories p.parent = (.ok (), made)
      ∧ made.write p bytes = .ok left := by
  unfold place
  rcases s.ensureDirectories p.parent with ⟨_ | _, made⟩
  · simp
  · simp only [Prod.mk.injEq, true_and, exists_eq_left']
    cases made.write p bytes with
    | error fault => simp
    | ok written => simp

/-- A store has received a file at a location that a path names: of all else it
has only got directories above the path. -/
structure Receives (s : Store) (p : FilePath) (bytes : ByteArray)
    (place : Location) (t : Store) :
    Prop where
  resolve : t.resolve p = .ok place
  lookup : t.lookup place = some (.file bytes)
  before : s.lookup place ≠ some .directory
  others : ∀ q, q ≠ place → t.lookup q = s.lookup q
    ∨ s.lookup q = none ∧ t.lookup q = some .directory ∧ t.Leads p.parent q

namespace Receives

variable {s t : Store} {p : FilePath} {bytes : ByteArray} {place : Location}

theorem keepsDirectories (h : s.Receives p bytes place t) :
    s.KeepsDirectories t := by
  intro q hq
  have hother : q ≠ place := by
    rintro rfl
    exact h.before hq
  exact lookup_of_kept (h.others q hother) hq

theorem ne_nil (h : s.Receives p bytes place t) : place ≠ [] := by
  rintro rfl
  exact h.before rfl

theorem read (h : s.Receives p bytes place t) : t.read p = .ok bytes := by
  rw [Store.read, h.resolve]
  simp only [h.lookup]

end Receives

/-- A file that has been received stays when another one is, and all else is as
before. -/
theorem Receives.followed {s t u : Store} {p₁ p₂ : FilePath}
    {bytes₁ bytes₂ : ByteArray} {place₁ place₂ : Location}
    (h₁ : s.Receives p₁ bytes₁ place₁ t) (h₂ : t.Receives p₂ bytes₂ place₂ u) :
    u.resolve p₁ = .ok place₁
      ∧ (place₁ ≠ place₂ → u.lookup place₁ = some (.file bytes₁))
      ∧ ∀ q, q ≠ place₁ → q ≠ place₂ → u.lookup q = s.lookup q
        ∨ s.lookup q = none ∧ u.lookup q = some .directory
            ∧ (u.Leads p₁.parent q ∨ u.Leads p₂.parent q) := by
  refine ⟨h₂.keepsDirectories.resolve h₁.resolve,
    fun hne => lookup_of_kept (h₂.others place₁ hne) h₁.lookup,
    fun q hq₁ hq₂ => ?_⟩
  refine (kept_trans (h₁.others q hq₁) (h₂.others q hq₂)).imp_right ?_
  rintro ⟨hnone, hmade, hled⟩
  exact ⟨hnone, hmade, hled.imp_left fun hled => hled.mono h₂.keepsDirectories⟩

theorem receives_write {s written : Store} {p : FilePath} {bytes : ByteArray}
    (h : s.write p bytes = .ok written) :
    ∃ place, s.Receives p bytes place written := by
  obtain ⟨place, hresolve, hfree, rfl⟩ := write_eq_ok.mp h
  have hne : place ≠ [] := by
    rintro rfl
    exact hfree rfl
  refine ⟨place, (keepsDirectories_put _ hfree).resolve hresolve, ?_, hfree,
    fun q hq => .inl ?_⟩
  · rw [lookup_put s hne, if_pos rfl]
  · rw [lookup_put s hne, if_neg hq]

theorem receives_place {s left : Store} {p : FilePath} {bytes : ByteArray}
    (h : s.place p bytes = (.ok (), left)) :
    ∃ place, s.Receives p bytes place left := by
  obtain ⟨made, hmade, hwrite⟩ := place_eq_ok.mp h
  have hleads : s.LeadsTo p.parent made := by
    have hgrown := leadsTo_ensureDirectories s p.parent
    rwa [hmade] at hgrown
  obtain ⟨place, hfile⟩ := receives_write hwrite
  refine ⟨place, hfile.resolve, hfile.lookup, fun hdirectory => ?_,
    fun q hq => ?_⟩
  · exact hfile.before (hleads.keepsDirectories _ hdirectory)
  -- what is new has come with the directories or with the file
  · refine (kept_trans (hleads q) (hfile.others q hq)).imp_right ?_
    rintro ⟨hnone, hmade, hled | hled⟩
    · exact ⟨hnone, hmade, hled.mono hfile.keepsDirectories⟩
    · exact ⟨hnone, hmade, hled⟩

end LeafSurvey.Store
