import LeafSurvey.Store
import Mathlib.Data.List.Infix

/-!
# Where placing a file fails

Placing a file asks for the paths above it, from the top or from wherever
directories are missing, and then for the path itself. Whatever fails names one
of these paths, and no path is refused for a null character that does not hold
one.

* `onWayTo_of_ensureReversed`: the directories above a path;
* `onWayTo_of_place`: the path itself.
-/

namespace LeafSurvey

/-- A fault is met at a path or above it, and a null character is only found
where the path has one. -/
structure FileFault.OnWayTo (fault : FileFault) (p : FilePath) : Prop where
  anchor : fault.path.anchor = p.anchor
  parts : fault.path.parts <+: p.parts
  null : fault.problem = .nullCharacter → ∃ part ∈ p.parts, '\x00' ∈ part.toList

theorem FileFault.OnWayTo.mono {fault : FileFault} {p q : FilePath}
    (h : fault.OnWayTo p) (hanchor : p.anchor = q.anchor)
    (hparts : p.parts <+: q.parts) : fault.OnWayTo q where
  anchor := h.anchor.trans hanchor
  parts := h.parts.trans hparts
  null hnull := by
    obtain ⟨part, hpart, hchar⟩ := h.null hnull
    exact ⟨part, hparts.subset hpart, hchar⟩

namespace Store

theorem follow_ne_nullCharacter (s : Store) (base : Location)
    (names : List String) :
    s.follow base names ≠ .error .nullCharacter := by
  fun_induction follow s base names with
  | case2 base rest ih => exact ih
  | case5 base name rest hup hlong hmore hdirectory ih => exact ih
  | _ => simp

theorem null_of_resolve {s : Store} {p : FilePath}
    (h : s.resolve p = .error .nullCharacter) :
    ∃ part ∈ p.parts, '\x00' ∈ part.toList := by
  unfold resolve at h
  split at h
  · rename_i hnull
    simpa using hnull
  split at h
  · cases h
  · exact absurd h (s.follow_ne_nullCharacter [] p.parts)

theorem onWayTo_of_resolve {s : Store} {p : FilePath} {problem : FileProblem}
    (h : s.resolve p = .error problem) : (⟨problem, p⟩ : FileFault).OnWayTo p :=
  ⟨rfl, List.prefix_refl _,
    fun (hnull : problem = .nullCharacter) => null_of_resolve (hnull ▸ h)⟩

/-- A fault at the path itself, where the path leads somewhere. -/
theorem onWayTo_of_ne {p : FilePath} {problem : FileProblem}
    (h : problem ≠ .nullCharacter) :
    (⟨problem, p⟩ : FileFault).OnWayTo p :=
  ⟨rfl, List.prefix_refl _, fun hnull => absurd hnull h⟩

/-! ## Making directories -/

theorem onWayTo_of_makeDirectory {s : Store} {p : FilePath} {fault : FileFault}
    (h : s.makeDirectory p = .error fault) : fault.OnWayTo p := by
  unfold makeDirectory at h
  split at h
  · rename_i problem hproblem
    cases h
    exact onWayTo_of_resolve hproblem
  split at h
  · cases h
    exact onWayTo_of_ne (by simp)
  · cases h

theorem onWayTo_of_settled {s : Store} {p q : FilePath}
    {fault fault' : FileFault} (hfault : fault.OnWayTo p)
    (h : (s.settled q fault).1 = .error fault') : fault'.OnWayTo p := by
  unfold settled at h
  split at h
  · cases h
  · cases h
    exact hfault

theorem onWayTo_of_ensureDirectory {s : Store} {p : FilePath}
    {fault : FileFault} (h : (s.ensureDirectory p).1 = .error fault) :
    fault.OnWayTo p := by
  unfold ensureDirectory at h
  split at h
  · cases h
  · rename_i fault' hfault
    have hway := onWayTo_of_makeDirectory hfault
    split at h
    · cases h
      exact hway
    · exact onWayTo_of_settled hway h

theorem onWayTo_of_ensureReversed {s : Store} {anchor : Anchor}
    {reversed : List String} {fault : FileFault}
    (h : (s.ensureReversed anchor reversed).1 = .error fault) :
    fault.OnWayTo ⟨anchor, reversed.reverse⟩ := by
  fun_induction ensureReversed s anchor reversed with
  | case1 => exact onWayTo_of_ensureDirectory h
  | case2 => cases h
  | case3 part above p cause hcause hmissing made hmade ih =>
    exact onWayTo_of_ensureDirectory h
  -- a fault above the path is one on the way to it
  | case4 part above p cause hcause hmissing cause' made hmade ih =>
    rw [hmade] at ih
    exact (ih h).mono rfl (by simp)
  | case5 part above p cause hcause hpresent =>
    exact onWayTo_of_settled (onWayTo_of_makeDirectory hcause) h

/-! ## Writing files -/

theorem onWayTo_of_write {s : Store} {p : FilePath} {bytes : ByteArray}
    {fault : FileFault} (h : s.write p bytes = .error fault) :
    fault.OnWayTo p := by
  unfold write at h
  split at h
  · rename_i problem hproblem
    cases h
    exact onWayTo_of_resolve hproblem
  split at h
  · cases h
    exact onWayTo_of_ne (by simp)
  · cases h

theorem onWayTo_of_place {s left : Store} {p : FilePath} {bytes : ByteArray}
    {fault : FileFault} (h : s.place p bytes = (.error fault, left)) :
    fault.OnWayTo p := by
  unfold place at h
  split at h
  · rename_i cause made hmade
    cases h
    have hway := onWayTo_of_ensureReversed (congrArg Prod.fst hmade)
    rw [List.reverse_reverse] at hway
    exact hway.mono rfl (List.dropLast_prefix _)
  · rename_i made hmade
    split at h
    · rename_i cause hcause
      cases h
      exact onWayTo_of_write hcause
    · cases h

end Store

end LeafSurvey
