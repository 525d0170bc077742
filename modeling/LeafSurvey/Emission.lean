/-!
# Emissions

An emission is a sequence produced item by item that may break off for a cause.
What was produced before the break stands; nothing after it is produced.
Appending emissions is associative and an emission that broke off absorbs what
would follow.
-/

namespace LeafSurvey

/-- Items in the order they were produced, and the cause when production broke
off. -/
structure Emission (ε α : Type) where
  items : List α
  broken : Option ε
deriving Repr

namespace Emission

variable {ε α : Type}

/-- Nothing produced and nothing broken. -/
def empty : Emission ε α := ⟨[], none⟩

/-- All of the items. -/
def ofList (items : List α) : Emission ε α := ⟨items, none⟩

/-- One item. -/
def single (item : α) : Emission ε α := ⟨[item], none⟩

/-- Breaks off at once. -/
def fail (cause : ε) : Emission ε α := ⟨[], some cause⟩

/-- One emission after the other; the second does not start when the first
breaks off. -/
def append (x y : Emission ε α) : Emission ε α :=
  match x.broken with
  | none => ⟨x.items ++ y.items, y.broken⟩
  | some _ => x

instance : Append (Emission ε α) := ⟨append⟩

/-- The items of an emission that did not break off. -/
def toExcept (x : Emission ε α) : Except ε (List α) :=
  match x.broken with
  | none => .ok x.items
  | some cause => .error cause

@[simp] theorem append_items_of_whole (xs : List α) (y : Emission ε α) :
    (⟨xs, none⟩ : Emission ε α) ++ y = ⟨xs ++ y.items, y.broken⟩ := rfl

@[simp] theorem append_of_broken (xs : List α) (cause : ε) (y : Emission ε α) :
    (⟨xs, some cause⟩ : Emission ε α) ++ y = ⟨xs, some cause⟩ := rfl

@[simp] theorem empty_append (y : Emission ε α) :
    (empty : Emission ε α) ++ y = y := rfl

@[simp] theorem append_empty (x : Emission ε α) :
    x ++ (empty : Emission ε α) = x := by
  obtain ⟨items, _ | cause⟩ := x
  · simp [empty]
  · rfl

theorem append_assoc (x y z : Emission ε α) : x ++ y ++ z = x ++ (y ++ z) := by
  obtain ⟨xs, _ | c⟩ := x
  · obtain ⟨ys, _ | d⟩ := y
    · simp
    · rfl
  · rfl

/-- A sequence of emissions is whole when both are. -/
theorem broken_append_eq_none {x y : Emission ε α} :
    (x ++ y).broken = none ↔ x.broken = none ∧ y.broken = none := by
  obtain ⟨xs, _ | cause⟩ := x
  · simp
  · simp

end Emission

end LeafSurvey
