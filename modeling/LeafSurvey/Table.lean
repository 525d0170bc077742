import LeafSurvey.Corpus

/-!
# Tables

A survey shows two tables: the leaf counts of each file, and the fields that the
entries of a corpus give. Cells are markup texts.
-/

namespace LeafSurvey

/-- A column of a table. Numbers are set to the right. -/
structure Column where
  header : String
  isRight : Bool
deriving DecidableEq, Repr

/-- A table with a title. -/
structure Table where
  title : String
  columns : List Column
  rows : List (List String)
deriving DecidableEq, Repr

namespace Table

/-- A table as plain lines: its title, its headers and its rows, with tabs
between cells. -/
def lines (t : Table) : List String :=
  t.title :: "\t".intercalate (t.columns.map (·.header))
    :: t.rows.map "\t".intercalate

end Table

namespace Corpus

/-- The cell that says whether two counts agree. -/
def countStatus (entries tokens : Nat) : String :=
  if entries = tokens then "[green]ok[/green]"
  else "[bold red]mismatch[/bold red]"

/-- The row of a file, by its path from the root. -/
def countRow (root : FilePath) (c : Tally) : List String :=
  [root.relativeText c.file, toString c.entries, toString c.tokens,
    countStatus c.entries c.tokens]

/-- The table of leaf counts. -/
def countTable (c : Corpus) (s : Store) : Except Failure Table := do
  let found ← c.tallies s
  return {
    title := "Leaf counts (" ++ toString c.files.length ++ " files)"
    columns := [⟨"File", false⟩, ⟨"Flattened", true⟩, ⟨"Streamed", true⟩,
      ⟨"Status", false⟩]
    rows := found.map (countRow c.root) }

/-- The row of a field. -/
def schemaRow (delimiter : String) (g : Group) : List String :=
  [g.path.joined delimiter, (Entries.fieldType g.members).fullName,
    toString g.members.length, if Entries.isPlural g.members then "yes" else "",
    if Entries.isMixed g.members then "[yellow]yes[/yellow]" else ""]

/-- The named groups, ordered by the names that a delimiter gives them. -/
def schemaGroups (delimiter : String) (groups : Groups) : Groups :=
  groups.named.mergeSort fun a b =>
    !decide (b.path.joined delimiter < a.path.joined delimiter)

/-- The table of fields. -/
def schemaTableOf (delimiter : String) (groups : Groups) : Table where
  title := "Inferred Fields"
  columns := [⟨"Field", false⟩, ⟨"Type", false⟩, ⟨"Entries", true⟩,
    ⟨"Set", false⟩, ⟨"Mixed", false⟩]
  rows := (schemaGroups delimiter groups).map (schemaRow delimiter)

/-- The delimiter of a table of fields. Octets do no harm where they have
nothing to join; any other delimiter must be a text there too. -/
def schemaDelimiter? (groups : Groups) : Value → Except Failure String
  | .bytes octets =>
    if groups.named.isEmpty then .ok Settings.usualDelimiter
    else Settings.delimiterText? (.bytes octets)
  | v => Settings.delimiterText? v

/-- The table of the fields of a corpus. -/
def schemaTable (c : Corpus) (delimiter : Value) (s : Store) :
    Except Failure Table := do
  let groups ← c.groups s
  return schemaTableOf (← schemaDelimiter? groups delimiter) groups

end Corpus

end LeafSurvey
