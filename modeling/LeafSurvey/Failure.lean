import LeafSurvey.Json.Layout
import LeafSurvey.Json.NumberRange
import LeafSurvey.Path
import LeafSurvey.Store
import LeafSurvey.Yaml.Malformed

/-!
# Failures

Everything that can stop a survey, by cause. `Failure.message` words the
failures that are reported, and `Failure.isReported` tells which ones a command
reports and ends with, rather than passing them on: all findings of the survey
itself, and files or directories that are not there.
-/

namespace LeafSurvey

/-- Why settings are refused. -/
inductive SettingsFault where
  | notYaml (file : FilePath) (reason : Yaml.Malformed)
  | notMapping (file : FilePath) (typeName : String)
  | unknownKeys (file : FilePath) (keys : List String)
  | emptyDelimiter
  | idsAreText
deriving DecidableEq, Repr

namespace SettingsFault

/-- The fault in words. -/
def message : SettingsFault → String
  | notYaml file reason =>
    "Invalid YAML in " ++ file.text ++ ": " ++ reason.message
  | notMapping file typeName =>
    "Config file " ++ file.text ++ " must contain a mapping, got " ++ typeName
  | unknownKeys file keys =>
    "Unknown config keys in " ++ file.text ++ ": " ++ ", ".intercalate keys
  | emptyDelimiter => "delimiter must not be empty"
  | idsAreText => "resource_type_ids must be a list of strings"

end SettingsFault

/-- A configured value that cannot be used where it is needed. -/
inductive Misuse where
  /-- An override names no setting. -/
  | unknownSetting (name : String)
  /-- The resource types are no list. -/
  | idsNotListed
  /-- An output path is no text. -/
  | pathNotText
  /-- Keys of different sorts have no order in which to report them. -/
  | unorderedKeys
  /-- The delimiter is no text and must join something. -/
  | delimiterNotText
  /-- The delimiter is octets and must join texts. -/
  | delimiterIsBytes
  /-- The locale cannot be a key. -/
  | localeNotKey
  /-- A value has no place in a document. -/
  | notWritable
  /-- An integer has more digits than are written. -/
  | tooManyDigits
  /-- A text has halves of surrogate pairs, which no file can hold. -/
  | notEncodable
  /-- A list or a mapping holds itself. -/
  | endless
deriving DecidableEq, Repr

namespace Misuse

/-- The misuse that a value without a form is. -/
def ofUnwritten : Value → Misuse
  | .int _ => tooManyDigits
  | .points _ => notEncodable
  | .enclosingList => endless
  | .enclosingPair => endless
  | .enclosingMap => endless
  | _ => notWritable

/-- The misuse that broke off a layout. -/
def ofLayout : Json.LayoutFault → Misuse
  | .value v => ofUnwritten v
  | .key k => ofUnwritten k

end Misuse

/-- Everything that can stop a survey. -/
inductive Failure where
  | settings (fault : SettingsFault)
  /-- A settings file that is not UTF-8. -/
  | settingsEncoding
  /-- A settings file that writes a value which does not exist. -/
  | settingsValue (fault : Yaml.ValueFault)
  | noSettingsFile (path : FilePath)
  | misuse (cause : Misuse)
  | noDirectory (path : FilePath)
  | notADirectory (path : FilePath)
  | file (fault : FileFault)
  | document (path : FilePath) (fault : Json.Fault)
  /-- A number of a document that is not taken in. -/
  | number (fault : Json.NumberFault)
  /-- A leaf without exact scalar. -/
  | roundedLeaf (value : Binary)
  /-- A file whose entries are not as many as its scalar tokens. -/
  | leafMismatch (fileName : String) (entries tokens : Nat)
  /-- Entries that are not as many as the scalar tokens of all files. -/
  | totalMismatch (entries tokens : Nat)
  /-- Fields that are not as many as the named groups. -/
  | fieldMismatch (fields groups : Nat)
  /-- An entry whose path has no field. -/
  | uncovered (path : Path) (fieldName : String)
  | interrupted
  /-- A notice whose markup the console cannot lay out. -/
  | brokenMarkup
deriving DecidableEq, Repr

namespace Failure

/-- The failure in words. -/
def message : Failure → String
  | settings fault => fault.message
  | settingsEncoding => "settings are not valid UTF-8"
  | settingsValue _ => "settings hold a value that does not exist"
  | noSettingsFile path => "Config file not found: " ++ path.text
  | misuse _ => "a configured value cannot be used"
  | noDirectory path => "Resource directory not found: " ++ path.text
  | notADirectory path => "Not a directory: " ++ path.text
  | file fault => fault.message
  | document path fault =>
    "Could not parse " ++ path.text ++ ": " ++ fault.message
  | number fault => fault.message
  | roundedLeaf value =>
    "Unexpected JSON leaf of type float: " ++ FloatLayout.message.text value
  | leafMismatch fileName entries tokens =>
    "Mismatch in " ++ fileName ++ ": flattened=" ++ toString entries
      ++ ", jsonLeaves="
      ++ toString tokens
  | totalMismatch entries tokens =>
    "Flattened leaf count (" ++ toString entries
      ++ ") != streaming leaf count ("
      ++ toString tokens ++ ")"
  | fieldMismatch fields groups =>
    "fieldDefinitions (" ++ toString fields ++ ") != uniqueNormalizedPaths ("
      ++ toString groups ++ ")"
  | uncovered _ fieldName =>
    "Entry path " ++ fieldName ++ " missing in fieldDefinitions"
  | interrupted => "interrupted"
  | brokenMarkup => "a notice cannot be laid out"

/-- Whether a command reports the failure and ends, instead of passing it on. -/
def isReported : Failure → Bool
  | settings _ => true
  | noSettingsFile _ => true
  | noDirectory _ => true
  | notADirectory _ => true
  | file fault => fault.problem = .missing || fault.problem = .notDirectory
  | document _ _ => true
  | leafMismatch _ _ _ => true
  | totalMismatch _ _ => true
  | fieldMismatch _ _ => true
  | uncovered _ _ => true
  | _ => false

end Failure

end LeafSurvey
