import LeafSurvey.Entry

/-!
# Groups

Entries are grouped by normalized path. Groups stand in the order in which their
paths were first met, and the entries of a group keep the order of the sequence.
Entries whose path normalizes to nothing form a group too, so that no entry is
lost; `Groups.named` leaves it out, since it has no name that a field could
carry.
-/

namespace LeafSurvey

/-- The entries that share a normalized path. -/
structure Group where
  path : Path
  members : List Entry
deriving DecidableEq, Repr

/-- Groups in the order in which their paths were first met. -/
abbrev Groups := List Group

namespace Groups

/-- Adds an entry to the group of a path, which is opened at the end when there
is none. -/
def add (path : Path) (e : Entry) : Groups → Groups
  | [] => [⟨path, [e]⟩]
  | g :: rest =>
    if g.path = path then { g with members := g.members ++ [e] } :: rest
    else g :: add path e rest

/-- Adding an entry opens a group for a path that has none, and keeps the order
of the others. -/
theorem paths_add (path : Path) (e : Entry) (groups : Groups) :
    (add path e groups).map Group.path
      = if path ∈ groups.map Group.path then groups.map Group.path
        else groups.map Group.path ++ [path] := by
  induction groups with
  | nil => rfl
  | cons g rest ih =>
    by_cases h : g.path = path
    · simp [add, h]
    · have hne : ¬path = g.path := fun h' => h h'.symm
      by_cases hm : path ∈ rest.map Group.path <;> simp_all [add]

/-- The groups of a sequence of entries. -/
def ofEntries (es : List Entry) : Groups :=
  es.foldl (fun groups e => add e.path.normalized e groups) []

/-- The groups with a path that can name a field. -/
def named (groups : Groups) : Groups :=
  groups.filter fun g => !g.path.isEmpty

/-- The number of entries in all groups. -/
def entryCount : Groups → Nat
  | [] => 0
  | g :: rest => g.members.length + entryCount rest

end Groups

end LeafSurvey
