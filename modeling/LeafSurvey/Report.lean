import LeafSurvey.Draft

/-!
# Verification report and coverage

The report counts what a survey has read and what it has found. The coverage
check goes through the entries once more: there are as many fields as named
groups, and every entry whose path can name a field has one of that name.
-/

namespace LeafSurvey

/-- The counts of a survey. -/
structure Report where
  files : Nat
  tokens : Nat
  entries : Nat
  fields : Nat
  sets : Nat
  mixed : Nat
deriving DecidableEq, Repr

namespace Report

/-- The report on groups, for a number of files, scalar tokens and entries. -/
def ofGroups (files tokens entries : Nat) (groups : Groups) : Report where
  files := files
  tokens := tokens
  entries := entries
  fields := groups.named.length
  sets := groups.named.countP fun g => Entries.isPlural g.members
  mixed := groups.named.countP fun g => Entries.isMixed g.members

/-- The counts with their names. -/
def counts (r : Report) : List (String × Nat) :=
  [("filesProcessed", r.files), ("totalLeavesStreaming", r.tokens),
    ("totalFlattenedEntries", r.entries), ("uniqueNormalizedPaths", r.fields),
    ("pathsMarkedAsSet", r.sets), ("pathsWithMixedKinds", r.mixed)]

/-- The document form of a report. -/
def toValue (r : Report) : Value :=
  record (r.counts.map fun c => (c.1, .int c.2))

end Report

/-! ## Coverage -/

namespace Coverage

/-- The failure at the first entry whose path can name a field and has none
among the names. -/
def firstGap? (names : List String) (delimiter : String) :
    List Entry → Option Failure
  | [] => none
  | e :: rest =>
    let path := e.path.normalized
    if path.isEmpty || names.contains (path.joined delimiter) then
      firstGap? names delimiter rest
    else some (.uncovered path (path.joined delimiter))

/-- Checks that fields, groups and entries agree. -/
def check (names : List String) (groups : Groups) (es : List Entry)
    (delimiter : String) :
    Except Failure Unit :=
  if names.length ≠ groups.named.length then
    .error (.fieldMismatch names.length groups.named.length)
  else
    match firstGap? names delimiter es with
    | some gap => .error gap
    | none => .ok ()

end Coverage

end LeafSurvey
