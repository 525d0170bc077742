import LeafSurvey.Settings.Basic
import LeafSurvey.Yaml.NodeValue

/-!
# Settings files

A settings file is a YAML mapping from names of settings to values, applied as
overrides to the usual settings. An empty file, like no file at all, leaves
everything as usual. Keys that name no setting are refused and reported in
order.
-/

namespace LeafSurvey

namespace Settings

/-- The name of the setting that a key names. -/
def settingName? : Value → Option String
  | .text s => if names.contains s then some s else none
  | _ => none

/-- The value of a setting at a node. Each resource type is put into words by
itself. -/
def valueAt (order : SetOrder) (d : Yaml.NodeValues) (name : String)
    (id : Yaml.NodeId) : Value :=
  if name = resourceTypesName then d.opened order id else d.value order id

/-- The overrides that the entries of a settings file make. -/
def overridesOf? (order : SetOrder) (file : FilePath) (d : Yaml.NodeValues)
    (entries : List (Value × Yaml.NodeId)) : Except Failure Overrides :=
  match (entries.map (·.1)).filter fun k => (settingName? k).isNone with
  | [] =>
    .ok (entries.filterMap fun e => (settingName? e.1).map fun s =>
      (s, valueAt order d s e.2))
  | unknown =>
    match Value.sorted? unknown with
    | some keys =>
      do throw (.settings (.unknownKeys file (← saying? Value.plain keys)))
    | none => .error (.misuse .unorderedKeys)

/-- The settings that a settings file makes. -/
def ofNodes? (order : SetOrder) (file : FilePath) (d : Yaml.NodeValues) :
    Except Failure Settings :=
  match d.entries? d.root, d.value order d.root with
  | some entries, _ => do usual.override? (← overridesOf? order file d entries)
  | none, .null => .ok usual
  | none, v => .error (.settings (.notMapping file v.typeName))

/-- The settings that the bytes of a file make. -/
def ofBytes? (order : SetOrder) (file : FilePath) (bytes : ByteArray) :
    Except Failure Settings :=
  match Yaml.read? bytes with
  | .error (.malformed reason) => .error (.settings (.notYaml file reason))
  | .error (.value fault) => .error (.settingsValue fault)
  | .error .encoding => .error .settingsEncoding
  | .ok none => .ok usual
  | .ok (some d) => ofNodes? order file d

/-- The settings of a file, or the usual ones when no file is given. -/
def load (order : SetOrder) (s : Store) :
    Option String → Except Failure Settings
  | none => .ok usual
  | some given =>
    let file := FilePath.ofString given
    match s.find? file, s.read file with
    | .error fault, _ => .error (.file fault)
    | .ok none, _ => .error (.noSettingsFile file)
    | .ok (some _), .ok bytes => ofBytes? order file bytes
    | .ok (some _), .error fault => .error (.file fault)

end Settings

end LeafSurvey
