import LeafSurvey.Proofs.Kinds
import LeafSurvey.Proofs.Positions

/-!
# Where a walk breaks off

A document may hold numbers that were rounded on the way. A walk comes to the
first of them in document order and breaks off there, however deep it lies: what
precedes it has its entries, and nothing that follows has any.

* `isFirstRounded_iff`: the first rounded number splits the leaves, and none is
  rounded in front of it;
* `broken_entries_eq_some`: a walk breaks off at the first rounded number, and
  for no other cause;
* `emitAll_append_rounded`: by then it has emitted the entries of the leaves in
  front;
* `exists_emitAll_blanked`: with null in place of rounded numbers it goes on
  behind the same entries;
* `entries_break_off_at_first_rounded`: so what a walk has yielded when it
  breaks off is a prefix of the walk over the document with null in place of
  every rounded number.
-/

namespace LeafSurvey

/-! ## Rounded leaves -/

namespace Leaf

/-- The leaf, with null in place of a rounded number. -/
def blanked : Leaf → Leaf
  | rounded _ => null
  | a => a

theorem blanked_of_not_rounded {a : Leaf} (h : ∀ x, a ≠ .rounded x) :
    a.blanked = a := by
  cases a with
  | rounded x => exact absurd rfl (h x)
  | _ => rfl

theorem blanked_ne_rounded (a : Leaf) (x : Binary) :
    a.blanked ≠ .rounded x := by
  cases a <;> simp [blanked]

end Leaf

namespace Document

/-! ## The first rounded number -/

/-- A rounded number at a position, with no other before it in document
order. -/
structure IsFirstRounded (d : Document Leaf) (p : Position) (x : Binary) :
    Prop where
  at_eq : d.at? p = some (.leaf (.rounded x))
  none_before : ∀ q y, q.Before p → d.at? q ≠ some (.leaf (.rounded y))

/-- The first rounded number splits the leaves in document order. -/
theorem isFirstRounded_iff {d : Document Leaf} {p : Position} {x : Binary} :
    d.IsFirstRounded p x
      ↔ ∃ front rest, d.spots = front ++ ⟨p, .rounded x⟩ :: rest
          ∧ ∀ spot ∈ front, ∀ y, spot.value ≠ .rounded y := by
  have hordered := pairwise_spots d
  constructor
  · rintro ⟨hat, hnone⟩
    obtain ⟨front, rest, hspots⟩ := List.append_of_mem (mem_spots.mpr hat)
    refine ⟨front, rest, hspots, fun spot hspot y hvalue => ?_⟩
    rw [hspots, List.pairwise_append] at hordered
    have hbefore : spot.position.Before p :=
      hordered.2.2 spot hspot _ List.mem_cons_self
    have hmem : ⟨spot.position, spot.value⟩ ∈ d.spots :=
      hspots ▸ List.mem_append_left _ hspot
    exact hnone _ y hbefore (hvalue ▸ mem_spots.mp hmem)
  · rintro ⟨front, rest, hspots, hfront⟩
    have hmem : ⟨p, .rounded x⟩ ∈ d.spots :=
      hspots ▸ List.mem_append_right _ List.mem_cons_self
    refine ⟨mem_spots.mp hmem, fun q y hbefore hat => ?_⟩
    have hq : ⟨q, .rounded y⟩ ∈ front ++ ⟨p, .rounded x⟩ :: rest :=
      hspots ▸ mem_spots.mpr hat
    rw [hspots, List.pairwise_append, List.pairwise_cons] at hordered
    -- in front nothing is rounded, and no position is before itself or before
    -- an earlier one
    rcases List.mem_append.mp hq with hq | hq
    · exact hfront _ hq y rfl
    · rcases List.mem_cons.mp hq with hq | hq
      · cases hq
        exact hbefore.asymm hbefore
      · exact hbefore.asymm (hordered.2.1.1 _ hq)

/-! ## The cause of a break -/

/-- The first rounded number is the cause for which a walk breaks off. -/
theorem broken_entries_eq_some {d : Document Leaf} {path : Path}
    {inArray : Bool} {x : Binary} :
    (d.entries path inArray).broken = some x ↔ ∃ p, d.IsFirstRounded p x := by
  simp only [← Emission.toExcept_eq_error, toExcept_entries_eq_mapM_spots,
    Outcome.mapM_eq_error, isFirstRounded_iff, Placed.exists_entry?_iff,
    Placed.entry?_eq_error]
  constructor
  · rintro ⟨front, ⟨p, a⟩, rest, hspots, hfront, rfl⟩
    exact ⟨p, front, rest, hspots, hfront⟩
  · rintro ⟨p, front, rest, hspots, hfront⟩
    exact ⟨front, ⟨p, .rounded x⟩, rest, hspots, hfront, rfl⟩

/-- A walk breaks off exactly if the document holds a rounded number. -/
theorem exists_broken_entries_iff {d : Document Leaf} {path : Path}
    {inArray : Bool} :
    (∃ x, (d.entries path inArray).broken = some x)
      ↔ ∃ p x, d.at? p = some (.leaf (.rounded x)) := by
  constructor
  · rintro ⟨x, hx⟩
    obtain ⟨p, hfirst⟩ := broken_entries_eq_some.mp hx
    exact ⟨p, x, hfirst.at_eq⟩
  · rintro ⟨p, x, hat⟩
    cases hwalk : (d.entries path inArray).toExcept with
    | error y => exact ⟨y, Emission.toExcept_eq_error.mp hwalk⟩
    | ok es =>
      -- a walk that does not break off has an entry for every leaf
      rw [toExcept_entries_eq_mapM_spots] at hwalk
      obtain ⟨e, _, he⟩ :=
        Outcome.exists_of_mem_of_mapM hwalk (mem_spots.mpr hat)
      exact absurd rfl (Placed.exists_entry?_iff.mp ⟨e, he⟩ x)

/-! ## What is yielded before a break -/

theorem emitAll_eq_ofList {ls : List (Placed Leaf)} {es : List Entry}
    (h : ls.mapM Placed.entry? = .ok es) : emitAll ls = .ofList es :=
  Emission.toExcept_eq_ok.mp ((toExcept_emitAll ls).trans h)

/-- What precedes a rounded leaf is emitted, and what follows is not. -/
theorem emitAll_append_rounded {front : List (Placed Leaf)}
    {before : List Entry} (h : front.mapM Placed.entry? = .ok before)
    (path : Path) (inArray : Bool) (x : Binary) (rest : List (Placed Leaf)) :
    emitAll (front ++ ⟨path, .rounded x, inArray⟩ :: rest)
      = ⟨before, some x⟩ := by
  rw [emitAll_append, emitAll_eq_ofList h, emitAll]
  show (⟨before ++ [], some x⟩ : Emission Binary Entry) = _
  rw [List.append_nil]

/-- Leaves with entries are not changed. -/
theorem map_blanked_of_mapM {ls : List (Placed Leaf)} {es : List Entry}
    (h : ls.mapM Placed.entry? = .ok es) :
    ls.map (Placed.map Leaf.blanked) = ls := by
  refine (List.map_congr_left fun l hl => ?_).trans (List.map_id ls)
  obtain ⟨e, _, he⟩ := Outcome.exists_of_mem_of_mapM h hl
  rw [Placed.map,
    Leaf.blanked_of_not_rounded (Placed.exists_entry?_iff.mp ⟨e, he⟩)]
  rfl

theorem exists_mapM_blanked (ls : List (Placed Leaf)) :
    ∃ es, (ls.map (Placed.map Leaf.blanked)).mapM Placed.entry? = .ok es := by
  refine Outcome.exists_mapM_eq_ok fun l hl => Placed.exists_entry?_iff.mpr ?_
  obtain ⟨l, _, rfl⟩ := List.mem_map.mp hl
  exact l.value.blanked_ne_rounded

/-- With null in place of the rounded leaf, and of others behind it, all leaves
are emitted. -/
theorem exists_emitAll_blanked {front : List (Placed Leaf)}
    {before : List Entry} (h : front.mapM Placed.entry? = .ok before)
    (path : Path) (inArray : Bool) (x : Binary) (rest : List (Placed Leaf)) :
    ∃ after, emitAll
      ((front ++ ⟨path, .rounded x, inArray⟩ :: rest).map
      (Placed.map Leaf.blanked))
      = .ofList (before ++ ⟨path, .null, inArray⟩ :: after) := by
  obtain ⟨after, hafter⟩ := exists_mapM_blanked rest
  refine ⟨after, ?_⟩
  rw [List.map_append, List.map_cons, map_blanked_of_mapM h, emitAll_append,
    emitAll, emitAll_eq_ofList h, emitAll_eq_ofList hafter]
  rfl

/-- A walk from any root breaks off exactly if the document holds a rounded
number, and the cause is the one that the first of them in document order has
for having no scalar. By then it has yielded the entries of all leaves that
precede this number, in order. These are the entries with which the walk over
the document with null in place of every rounded number begins; there the entry
of the null comes next. -/
theorem entries_break_off_at_first_rounded (d : Document Leaf) (path : Path)
    (inArray : Bool) :
    ((∃ x, (d.entries path inArray).broken = some x)
        ↔ ∃ p x, d.at? p = some (.leaf (.rounded x)))
      ∧ (∀ x, (d.entries path inArray).broken = some x
          ↔ ∃ p y, d.IsFirstRounded p y ∧ (Leaf.rounded y).scalar? = .error x)
      ∧ ∀ p x, d.IsFirstRounded p x → ∃ front rest before after,
          d.Enumerates (front ++ ⟨p, .rounded x⟩ :: rest)
            ∧ d.entries path inArray = ⟨before, some x⟩
            ∧ List.Forall₂ (Entry.IsAt path inArray) front before
            ∧ (d.map Leaf.blanked).entries path inArray
              = .ofList (before ++ ⟨path ++ p.keys, .null,
                  inArray || p.passesArray⟩ :: after) := by
  refine ⟨exists_broken_entries_iff, fun x => ?_, fun p x hfirst => ?_⟩
  · simp only [broken_entries_eq_some, Leaf.scalar?_eq_error,
      Leaf.rounded.injEq]
    constructor
    · rintro ⟨p, hfirst⟩
      exact ⟨p, x, hfirst, rfl⟩
    · rintro ⟨p, _, hfirst, rfl⟩
      exact ⟨p, hfirst⟩
  · obtain ⟨front, rest, hspots, hfront⟩ := isFirstRounded_iff.mp hfirst
    obtain ⟨before, hbefore⟩ := Outcome.exists_mapM_eq_ok fun spot hspot =>
      Placed.exists_entry?_iff (l := spot.placed path inArray).mpr
        (hfront spot hspot)
    have hentries : (front.map (Spot.placed path inArray)).mapM Placed.entry?
        = .ok before := by
      rw [List.mapM_map]
      exact hbefore
    have hleaves := leaves_eq_map_spots path inArray d
    rw [hspots, List.map_append, List.map_cons] at hleaves
    obtain ⟨after, hafter⟩ := exists_emitAll_blanked hentries (path ++ p.keys)
      (inArray || p.passesArray) x (rest.map (Spot.placed path inArray))
    refine ⟨front, rest, before, after, hspots ▸ enumerates_spots d, ?_, ?_, ?_⟩
    · rw [entries_eq_emitAll, hleaves]
      exact emitAll_append_rounded hentries _ _ x _
    · exact (Outcome.forall₂_of_mapM hbefore).imp fun _ _ =>
        Placed.isAt_of_entry?
    · rw [entries_eq_emitAll, leaves_map, hleaves]
      exact hafter

/-- A rounded number in an object in an array, behind an array in this array,
and another behind them. -/
def twoRounded : Document Leaf :=
  .object [
    ("a", .array [.array [.leaf (.integer 1)],
      .object [("b", .leaf (.rounded (.ofRatio false 3 2)))]]),
    ("c", .leaf (.rounded .nan)),
    ("d", .leaf (.text "e"))]

/-- The walk breaks off at the first of them: one entry has been yielded, of the
four that the walk with nulls yields. -/
theorem break_of_twoRounded :
    twoRounded.IsFirstRounded [.member 0 "a", .item 1,
      .member 0 "b"] (.ofRatio false 3 2)
      ∧ (twoRounded.map Leaf.blanked).entries ["r"] false
        = .ofList [⟨["r", "a"], .number (.ofInt 1), true⟩,
            ⟨["r", "a", "b"], .null, true⟩, ⟨["r", "c"], .null, false⟩,
            ⟨["r", "d"], .text "e", false⟩]
      ∧ twoRounded.entries ["r"] false
        = ⟨[⟨["r", "a"], .number (.ofInt 1), true⟩],
            some (.ofRatio false 3 2)⟩ := by
  have hfirst : twoRounded.IsFirstRounded [.member 0 "a", .item 1,
      .member 0 "b"] (.ofRatio false 3 2) :=
      isFirstRounded_iff.mpr ⟨[⟨[.member 0 "a", .item 0, .item 0], .integer 1⟩],
        _, rfl, by simp⟩
  have hblanked : (twoRounded.map Leaf.blanked).entries ["r"] false
      = .ofList [⟨["r", "a"], .number (.ofInt 1), true⟩,
          ⟨["r", "a", "b"], .null, true⟩, ⟨["r", "c"], .null, false⟩,
          ⟨["r", "d"], .text "e", false⟩] := rfl
  obtain ⟨_, _, hstart⟩ :=
    entries_break_off_at_first_rounded twoRounded ["r"] false
  obtain ⟨front, rest, before, after, _, hwalk, _, hprefix⟩ := hstart _ _ hfirst
  refine ⟨hfirst, hblanked, ?_⟩
  rw [hblanked] at hprefix
  -- the null of the first rounded number stands only behind the first entry
  have hitems := congrArg Emission.items hprefix
  have hbefore : before = [⟨["r", "a"], .number (.ofInt 1), true⟩] := by
    simp [Emission.ofList, List.cons_eq_append_iff, Position.keys,
      Step.key?] at hitems
    exact hitems.1
  rw [hwalk, hbefore]

end Document

end LeafSurvey
