import LeafSurvey.Failure

/-!
# Settings

The settings of a survey name the draft, say how field names and labels are
made, and where the two outputs go. Overrides replace single settings;
`Settings.override?` checks the outcome and brings the resource types and the
output paths into their own form. A null override counts as none. Of the checks,
an unknown name comes first, then the delimiter, then the resource types, then
the paths.
-/

namespace LeafSurvey

/-- The settings of a survey. Texts may be configured as any value; what cannot
be used is found where it is used. -/
structure Settings where
  key : Value
  name : Value
  description : Value
  resourceTypes : List Value.Word
  locale : Value
  delimiter : Value
  reportFile : FilePath
  draftFile : FilePath
deriving Repr

/-- Values for single settings, by name. -/
abbrev Overrides := List (String × Value)

namespace Settings

/-- The delimiter between the segments of a field name, unless another is
configured. -/
def usualDelimiter : String := "___"

/-- The settings where nothing is configured: the draft of the brand
category. -/
def usual : Settings where
  key := .text "Brand"
  name := .text "Brand"
  description := .text "Fields definitions for brand (top-level category)"
  resourceTypes := [.chars "category"]
  locale := .text "en"
  delimiter := .text usualDelimiter
  reportFile := .ofString "verification.json"
  draftFile := .ofString "brand-type.json"

/-- The name of the setting that lists the resource types. -/
def resourceTypesName : String := "resource_type_ids"

/-- The names under which settings are configured. -/
def names : List String :=
  ["key", "name", "description", resourceTypesName, "locale", "delimiter",
    "report_path", "draft_path"]

/-- Whether a value counts as given. -/
def isGiven : Value → Bool
  | .null => false
  | _ => true

/-- A name that overrides can never use, not even with a null. -/
def reservedName : String := "self"

/-- Whether an override is refused for its name. -/
def isRefused (o : String × Value) : Bool :=
  !names.contains o.1 && (isGiven o.2 || o.1 = reservedName)

/-- What is said of values, when all of them have a text. -/
def saying? {α : Type} (say : Value → α) (vs : List Value) :
    Except Failure (List α) :=
  if vs.all Value.hasText then .ok (vs.map say)
  else .error (.misuse .tooManyDigits)

/-- Values in words, when all of them have a text. -/
def words? (vs : List Value) : Except Failure (List Value.Word) :=
  saying? Value.word vs

/-- The resource types that a value lists, in words; a mapping lists its keys,
and octets list numbers. -/
def resourceTypes? : Value → Except Failure (List Value.Word)
  | .text _ => .error (.settings .idsAreText)
  | .points _ => .error (.settings .idsAreText)
  | .list items => words? items
  | .set items => words? items
  | .bytes octets => words? (octets.map fun b => .int b.toNat)
  | .map entries => words? (entries.map (·.1))
  | _ => .error (.misuse .idsNotListed)

/-- The character that a code point is in a path. No file name has a null
character in it, and none has half of a surrogate pair, so the one stands for
the other. -/
def pathChar (code : Nat) : Char :=
  if Text.isHalf code then '\x00' else Char.ofNat code

/-- The output path that a value names. -/
def path? : Value → Except Failure FilePath
  | .text s => .ok (.ofString s)
  | .points codes => .ok (.ofString (String.ofList (codes.map pathChar)))
  | _ => .error (.misuse .pathNotText)

/-- Reads an override in its own form, if there is one. -/
def readOr {α : Type} (read : Value → Except Failure α) (present : α) :
    Option Value → Except Failure α
  | some v => read v
  | none => .ok present

/-- The settings with overrides. -/
def override? (s : Settings) (overrides : Overrides) :
    Except Failure Settings := do
  let given := overrides.filter fun o => isGiven o.2
  match overrides.find? isRefused with
  | some o => throw (.misuse (.unknownSetting o.1))
  | none =>
    let delimiter := (given.lookup "delimiter").getD s.delimiter
    if !delimiter.isTruthy then throw (.settings .emptyDelimiter)
    let ids ← readOr resourceTypes? s.resourceTypes
        (given.lookup resourceTypesName)
    let reportFile ← readOr path? s.reportFile (given.lookup "report_path")
    let draftFile ← readOr path? s.draftFile (given.lookup "draft_path")
    return {
      key := (given.lookup "key").getD s.key
      name := (given.lookup "name").getD s.name
      description := (given.lookup "description").getD s.description
      resourceTypes := ids
      locale := (given.lookup "locale").getD s.locale
      delimiter := delimiter
      reportFile := reportFile
      draftFile := draftFile }

end Settings

end LeafSurvey
