import Mathlib.Data.List.Forall2
import Mathlib.Data.List.Perm.Basic

/-!
# Outcomes of steps that may fail

Most of the survey is written in `Except`: a step answers or fails, and the
first failure ends what it belongs to. This file says when a sequence of such
steps succeeds and with which failure it ends:

* `bind_eq_ok` and `bind_eq_error` open one step followed by another;
* `mapM_eq_ok` reads a traversal that succeeds as a list of single successes,
  and `mapM_eq_error` one that fails by its first element which fails;
* `forM_eq_ok` and `forM_eq_error` do so for checks, and the failure of a
  traversal is that of the first element which fails, with all elements before
  it good.
-/

namespace LeafSurvey.Outcome

variable {ε α β : Type}

theorem bind_eq_ok {x : Except ε α} {f : α → Except ε β} {b : β} :
    x >>= f = .ok b ↔ ∃ a, x = .ok a ∧ f a = .ok b := by
  cases x with
  | error e =>
    constructor
    · intro h
      cases h
    · rintro ⟨a, h, _⟩
      cases h
  | ok a =>
    constructor
    · intro h
      exact ⟨a, rfl, h⟩
    · rintro ⟨a', h, hf⟩
      cases h
      exact hf

theorem bind_eq_error {x : Except ε α} {f : α → Except ε β} {e : ε} :
    x >>= f = .error e ↔ x = .error e ∨ ∃ a, x = .ok a ∧ f a = .error e := by
  cases x with
  | error e' =>
    constructor
    · intro h
      cases h
      exact .inl rfl
    · rintro (h | ⟨a, h, _⟩)
      · cases h
        rfl
      · cases h
  | ok a =>
    constructor
    · intro h
      exact .inr ⟨a, rfl, h⟩
    · rintro (h | ⟨a', h, hf⟩)
      · cases h
      · cases h
        exact hf

/-- A traversal succeeds with the answers of its elements. -/
theorem mapM_eq_ok {f : α → Except ε β} {xs : List α} {ys : List β} :
    xs.mapM f = .ok ys ↔ xs.map f = ys.map .ok := by
  induction xs generalizing ys with
  | nil =>
    rw [List.mapM_nil, List.map_nil]
    constructor
    · intro h
      cases h
      rfl
    · intro h
      rw [List.map_eq_nil_iff.mp h.symm]
      rfl
  | cons x rest ih =>
    rw [List.mapM_cons, List.map_cons, bind_eq_ok]
    constructor
    · rintro ⟨y, hy, h⟩
      obtain ⟨ys', hys', h⟩ := bind_eq_ok.mp h
      cases h
      rw [hy, ih.mp hys', List.map_cons]
    · intro h
      cases ys with
      | nil => exact absurd h (List.cons_ne_nil _ _)
      | cons y ys' =>
        rw [List.map_cons, List.cons.injEq] at h
        exact ⟨y, h.1, bind_eq_ok.mpr ⟨ys', ih.mpr h.2, rfl⟩⟩

/-- Every element of a traversal that succeeds has its answer among those
given. -/
theorem exists_of_mem_of_mapM {f : α → Except ε β} {xs : List α} {ys : List β}
    (h : xs.mapM f = .ok ys) {x : α} (hx : x ∈ xs) : ∃ y ∈ ys, f x = .ok y := by
  have hfx : f x ∈ ys.map .ok := mapM_eq_ok.mp h ▸ List.mem_map_of_mem hx
  obtain ⟨y, hy, heq⟩ := List.mem_map.mp hfx
  exact ⟨y, hy, heq.symm⟩

/-- A traversal of elements that all succeed succeeds. -/
theorem exists_mapM_eq_ok {f : α → Except ε β} {xs : List α}
    (h : ∀ x ∈ xs, ∃ y, f x = .ok y) :
    ∃ ys, xs.mapM f = .ok ys := by
  induction xs with
  | nil => exact ⟨[], rfl⟩
  | cons x rest ih =>
    obtain ⟨y, hy⟩ := h x List.mem_cons_self
    obtain ⟨ys, hys⟩ := ih fun x' hx' => h x' (List.mem_cons_of_mem _ hx')
    exact ⟨y :: ys,
      mapM_eq_ok.mpr
      (by rw [List.map_cons, hy, mapM_eq_ok.mp hys, List.map_cons])⟩

theorem length_of_mapM {f : α → Except ε β} {xs : List α} {ys : List β}
    (h : xs.mapM f = .ok ys) : ys.length = xs.length := by
  simpa using (congrArg List.length (mapM_eq_ok.mp h)).symm

/-- What is seen of each answer in its element is seen of all answers in all
elements. -/
theorem map_of_mapM {γ : Type} {f : α → Except ε β} {g : β → γ} {k : α → γ}
    {xs : List α} {ys : List β} (h : xs.mapM f = .ok ys)
    (hg : ∀ x y, f x = .ok y → g y = k x) : ys.map g = xs.map k := by
  induction xs generalizing ys with
  | nil =>
    cases h
    rfl
  | cons x rest ih =>
    rw [List.mapM_cons] at h
    obtain ⟨y, hy, h⟩ := bind_eq_ok.mp h
    obtain ⟨ys', hys', h⟩ := bind_eq_ok.mp h
    cases h
    rw [List.map_cons, List.map_cons, hg x y hy, ih hys']

/-- The answers stand pairwise with their elements. -/
theorem forall₂_of_mapM {f : α → Except ε β} {xs : List α} {ys : List β}
    (h : xs.mapM f = .ok ys) :
    List.Forall₂ (fun x y => f x = .ok y) xs ys := by
  have hmap := mapM_eq_ok.mp h
  rwa [← List.forall₂_eq_eq_eq, List.forall₂_map_left_iff,
    List.forall₂_map_right_iff] at hmap

/-- A traversal fails as the first of its elements that fails. -/
theorem mapM_eq_error {f : α → Except ε β} {xs : List α} {e : ε} :
    xs.mapM f = .error e
      ↔ ∃ front x rest, xs = front ++ x :: rest
          ∧ (∀ y ∈ front, ∃ b, f y = .ok b) ∧ f x = .error e := by
  induction xs with
  | nil =>
    rw [List.mapM_nil]
    constructor
    · intro h
      cases h
    · rintro ⟨front, x, rest, h, _⟩
      exact absurd h.symm
        (List.append_ne_nil_of_right_ne_nil front (List.cons_ne_nil x rest))
  | cons y ys ih =>
    rw [List.mapM_cons, bind_eq_error]
    constructor
    · rintro (hy | ⟨b, hy, h⟩)
      · exact ⟨[], y, ys, rfl, by simp, hy⟩
      · -- nothing fails once the rest has answered
        have hrest : ys.mapM f = .error e := by
          rcases bind_eq_error.mp h with h | ⟨bs, _, h⟩
          · exact h
          · cases h
        obtain ⟨front, x, rest, rfl, hfront, hx⟩ := ih.mp hrest
        exact ⟨y :: front, x, rest, rfl,
          List.forall_mem_cons.mpr ⟨⟨b, hy⟩, hfront⟩, hx⟩
    · rintro ⟨front, x, rest, h, hfront, hx⟩
      cases front with
      | nil =>
        cases h
        exact .inl hx
      | cons z front =>
        cases h
        obtain ⟨⟨b, hz⟩, hfront⟩ := List.forall_mem_cons.mp hfront
        exact .inr ⟨b, hz,
          bind_eq_error.mpr (.inl (ih.mpr ⟨front, x, rest, rfl, hfront, hx⟩))⟩

/-- Elements in another order have their answers in another order. -/
theorem mapM_perm {f : α → Except ε β} {xs xs' : List α} {ys ys' : List β}
    (h : xs.Perm xs') (hys : xs.mapM f = .ok ys) (hys' : xs'.mapM f = .ok ys') :
    ys.Perm ys' := by
  have hmap : (ys.map (Except.ok (ε := ε))).Perm (ys'.map .ok) := by
    rw [← mapM_eq_ok.mp hys, ← mapM_eq_ok.mp hys']
    exact h.map f
  exact (List.map_perm_map_iff fun _ _ => Except.ok.inj).mp hmap

/-- A traversal that succeeds does so in any other order. -/
theorem exists_mapM_of_perm {f : α → Except ε β} {xs xs' : List α} {ys : List β}
    (h : xs.Perm xs') (hys : xs.mapM f = .ok ys) :
    ∃ ys', xs'.mapM f = .ok ys' ∧ ys.Perm ys' := by
  have hall : ∀ x ∈ xs', ∃ y, f x = .ok y := by
    intro x hx
    obtain ⟨y, _, hy⟩ := exists_of_mem_of_mapM hys (h.mem_iff.mpr hx)
    exact ⟨y, hy⟩
  obtain ⟨ys', hys'⟩ := exists_mapM_eq_ok hall
  exact ⟨ys', hys', mapM_perm h hys hys'⟩

/-- Traversals of elements that succeed pair by pair have answers that are
related pair by pair. -/
theorem exists_mapM_of_forall₂ {α' β' : Type} {R : β → β' → Prop}
    {f : α → Except ε β} {g : α' → Except ε β'} {xs : List α} {xs' : List α'}
    (h : List.Forall₂ (fun x x' => ∃ y y',
      f x = .ok y ∧ g x' = .ok y' ∧ R y y') xs xs') :
    ∃ ys ys', xs.mapM f = .ok ys ∧ xs'.mapM g = .ok ys'
      ∧ List.Forall₂ R ys ys' := by
  simp only [mapM_eq_ok]
  induction h with
  | nil => exact ⟨[], [], rfl, rfl, .nil⟩
  | cons hpair _ ih =>
    obtain ⟨y, y', hy, hy', hrel⟩ := hpair
    obtain ⟨ys, ys', hys, hys', hrest⟩ := ih
    refine ⟨y :: ys, y' :: ys', ?_, ?_, .cons hrel hrest⟩
    · rw [List.map_cons, List.map_cons, hy, hys]
    · rw [List.map_cons, List.map_cons, hy', hys']

/-- Two outcomes are alike: their answers are related, or they are one
failure. -/
def Alike {β' : Type} (R : β → β' → Prop) (x : Except ε β) (x' : Except ε β') :
    Prop :=
  (∃ y y', x = .ok y ∧ x' = .ok y' ∧ R y y') ∨ ∃ e, x = .error e ∧ x' = .error e

/-- What comes out alike pair by pair comes out alike together. -/
theorem alike_mapM {α' β' : Type} {R : β → β' → Prop} {f : α → Except ε β}
    {g : α' → Except ε β'} {xs : List α} {xs' : List α'}
    (h : List.Forall₂ (fun x x' => Alike R (f x) (g x')) xs xs') :
    Alike (List.Forall₂ R) (xs.mapM f) (xs'.mapM g) := by
  induction h with
  | nil => exact .inl ⟨[], [], rfl, rfl, .nil⟩
  | cons hpair _ ih =>
    rw [List.mapM_cons, List.mapM_cons]
    rcases hpair with ⟨y, y', hy, hy', hrel⟩ | ⟨e, hy, hy'⟩
    · rw [hy, hy']
      rcases ih with ⟨ys, ys', hys, hys', hrest⟩ | ⟨e, hys, hys'⟩
      · rw [hys, hys']
        exact .inl ⟨y :: ys, y' :: ys', rfl, rfl, .cons hrel hrest⟩
      · rw [hys, hys']
        exact .inr ⟨e, rfl, rfl⟩
    · rw [hy, hy']
      exact .inr ⟨e, rfl, rfl⟩

/-- Checks that come out alike pair by pair come out alike together. -/
theorem forM_eq_of_forall₂ {α' : Type} {f : α → Except ε Unit}
    {g : α' → Except ε Unit} {xs : List α} {xs' : List α'}
    (h : List.Forall₂ (fun x x' => f x = g x') xs xs') :
    xs.forM f = xs'.forM g := by
  induction h with
  | nil => rfl
  | @cons x x' rest rest' hpair _ ih =>
    show (f x >>= fun _ => rest.forM f) = (g x' >>= fun _ => rest'.forM g)
    rw [hpair, ih]

/-- Checks succeed together when each succeeds. -/
theorem forM_eq_ok {f : α → Except ε Unit} {xs : List α} :
    xs.forM f = .ok () ↔ ∀ x ∈ xs, f x = .ok () := by
  induction xs with
  | nil =>
    constructor
    · intro _ x hx
      cases hx
    · intro _
      rfl
  | cons x rest ih =>
    rw [List.forall_mem_cons, ← ih]
    show (f x >>= fun _ => rest.forM f) = .ok () ↔ _
    rw [bind_eq_ok]
    constructor
    · rintro ⟨_, hx, hrest⟩
      exact ⟨hx, hrest⟩
    · rintro ⟨hx, hrest⟩
      exact ⟨(), hx, hrest⟩

/-- Checks fail as the first of them that fails. -/
theorem forM_eq_error {f : α → Except ε Unit} {xs : List α} {e : ε} :
    xs.forM f = .error e
      ↔ ∃ front x rest, xs = front ++ x :: rest ∧ (∀ y ∈ front, f y = .ok ())
          ∧ f x = .error e := by
  induction xs with
  | nil =>
    constructor
    · intro h
      cases h
    · rintro ⟨front, x, rest, h, _⟩
      exact absurd h.symm
        (List.append_ne_nil_of_right_ne_nil front (List.cons_ne_nil x rest))
  | cons y ys ih =>
    show (f y >>= fun _ => ys.forM f) = .error e ↔ _
    rw [bind_eq_error]
    constructor
    -- the first that fails is this one, or the first among the rest
    · rintro (hy | ⟨_, hy, h⟩)
      · refine ⟨[], y, ys, rfl, fun z hz => ?_, hy⟩
        cases hz
      · obtain ⟨front, x, rest, rfl, hfront, hx⟩ := ih.mp h
        exact ⟨y :: front, x, rest, rfl,
          List.forall_mem_cons.mpr ⟨hy, hfront⟩, hx⟩
    · rintro ⟨front, x, rest, h, hfront, hx⟩
      cases front with
      | nil =>
        cases h
        exact .inl hx
      | cons z front =>
        cases h
        obtain ⟨hz, hfront⟩ := List.forall_mem_cons.mp hfront
        exact .inr ⟨(), hz, ih.mpr ⟨front, x, rest, rfl, hfront, hx⟩⟩

theorem discard_eq_ok {x : Except ε α} :
    discard x = .ok () ↔ ∃ a, x = .ok a := by
  cases x with
  | error e =>
    constructor
    · intro h
      cases h
    · rintro ⟨a, h⟩
      cases h
  | ok a => exact ⟨fun _ => ⟨a, rfl⟩, fun _ => rfl⟩

theorem discard_eq_error {x : Except ε α} {e : ε} :
    discard x = .error e ↔ x = .error e := by
  cases x with
  | error e' =>
    constructor
    · intro h
      cases h
      rfl
    · intro h
      cases h
      rfl
  | ok a =>
    constructor
    · intro h
      cases h
    · intro h
      cases h

end LeafSurvey.Outcome
