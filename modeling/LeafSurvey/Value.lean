import LeafSurvey.DateTime
import LeafSurvey.Number.Numeral
import LeafSurvey.Number.Shortest
import LeafSurvey.Text.Quoted

/-!
# Configured values

Settings may hold any value that their file can write: besides texts also
numbers, truth values, dates, times, octets, lists, sets and mappings. A list or
a mapping may hold itself; the place where it stands again is marked, so a value
is always finite. This module holds the type, the text of a value in messages,
when two values are the same key of a mapping, and how keys are ordered.
-/

namespace LeafSurvey

/-- A value of a settings file. A mapping keeps its entries in order. The items
of a set stand in the order in which the process goes through it. -/
inductive Value where
  | null
  | bool (value : Bool)
  | int (value : Int)
  | float (value : Binary)
  | text (value : String)
  /-- A text with halves of surrogate pairs in it, by code points. -/
  | points (codes : List Nat)
  | date (value : Date)
  | time (value : DateTime)
  | bytes (octets : List UInt8)
  | list (items : List Value)
  /-- An entry of a list that pairs keys with values. -/
  | pair (key value : Value)
  | set (items : List Value)
  | map (entries : List (Value × Value))
  /-- A list that stands around this place. -/
  | enclosingList
  /-- A pair that stands around this place. -/
  | enclosingPair
  /-- A mapping that stands around this place. -/
  | enclosingMap
deriving Repr

/-- The order in which a process goes through its sets. It may be any, and
another process may have another one; but one process goes through sets made
alike in one order. -/
structure SetOrder where
  arrange : List Value → List Value
  perm : ∀ items, (arrange items).Perm items

/-- Sets that keep the order in which they are written. -/
def SetOrder.written : SetOrder := ⟨id, fun items => .refl items⟩

namespace Value

/-- The name of a value's type in messages. -/
def typeName : Value → String
  | null => "NoneType"
  | bool _ => "bool"
  | int _ => "int"
  | float _ => "float"
  | text _ => "str"
  | points _ => "str"
  | date _ => "date"
  | time _ => "datetime"
  | bytes _ => "bytes"
  | pair _ _ => "tuple"
  | enclosingPair => "tuple"
  | set _ => "set"
  | list _ => "list"
  | enclosingList => "list"
  | map _ => "dict"
  | enclosingMap => "dict"

/-- Empty and zero values count as not given. -/
def isTruthy : Value → Bool
  | null => false
  | bool b => b
  | int n => n ≠ 0
  | float x => !x.isZero
  | text s => !s.isEmpty
  | bytes octets => !octets.isEmpty
  | list items => !items.isEmpty
  | set items => !items.isEmpty
  | map entries => !entries.isEmpty
  | _ => true

/-- Values that cannot be taken apart may serve as keys. -/
def isKey : Value → Bool
  | list _ => false
  | enclosingList => false
  | pair _ _ => false
  | enclosingPair => false
  | set _ => false
  | map _ => false
  | enclosingMap => false
  | _ => true

/-- The code points of a text. -/
def codes? : Value → Option (List Nat)
  | text s => some (s.toList.map Char.toNat)
  | points codes => some codes
  | _ => none

/-- A number as an integer times a power of two; truth values count as one and
zero. -/
def scaled? : Value → Option (Int × Int)
  | bool b => some (if b then 1 else 0, 0)
  | int n => some (n, 0)
  | float x => x.scaled?
  | _ => none

/-- Whether two keys are the same. Numbers are compared by value, whatever their
type. -/
def sameKey (a b : Value) : Bool :=
  match a.scaled?, b.scaled? with
  | some x, some y =>
    let (m, n, _) := Binary.aligned x y
    m == n
  | some _, none => false
  | none, some _ => false
  | none, none =>
    match a, b with
    | null, null => true
    | float x, float y => x == y
    | text s, text t => s == t
    | points p, points q => p == q
    | date d, date e => d == e
    | time t, time u => t.same u
    | bytes p, bytes q => p == q
    | _, _ => false

/-- Puts an entry into a mapping: a key that is there keeps its place and its
spelling and takes the new value, any other comes last. -/
def putEntry (key value : Value) : List (Value × Value) → List (Value × Value)
  | [] => [(key, value)]
  | (k, v) :: rest =>
    if sameKey k key then (k, value) :: rest
    else (k, v) :: putEntry key value rest

/-- Keys of one class can be ordered among each other. -/
inductive KeyClass where
  | number
  | text
  | date
  /-- Times with a known offset, or without one. -/
  | time (isPlaced : Bool)
  | bytes
  | other
deriving DecidableEq

/-- The class of a key. -/
def keyClass : Value → KeyClass
  | bool _ => .number
  | int _ => .number
  | float _ => .number
  | text _ => .text
  | points _ => .text
  | date _ => .date
  | time t => .time t.isPlaced
  | bytes _ => .bytes
  | _ => .other

/-- Whether a floating-point value lies below every finite number, or above. -/
def atInfinity (negative : Bool) : Value → Bool
  | float (.infinite s) => s == negative
  | _ => false

/-- Whether one number comes strictly before another. -/
def numberBefore (a b : Value) : Bool :=
  match a.scaled?, b.scaled? with
  | some x, some y =>
    let (m, n, _) := Binary.aligned x y
    m < n
  | some _, none => atInfinity false b
  | none, some _ => atInfinity true a
  | none, none => atInfinity true a && atInfinity false b

/-- Whether one key comes strictly before another of the same class. Texts are
ordered by code points. -/
def before (a b : Value) : Bool :=
  match a.codes?, b.codes? with
  | some p, some q => p < q
  | _, _ =>
    match a, b with
    | date d, date e => d.before e
    | time t, time u => t.before u
    | bytes p, bytes q => p.map UInt8.toNat < q.map UInt8.toNat
    | a, b => numberBefore a b

/-- The keys in order, when they can be ordered: a single key always, several
when they are of one class that has an order. -/
def sorted? (keys : List Value) : Option (List Value) :=
  match keys with
  | [] => some []
  | [key] => some [key]
  | first :: rest =>
    if first.keyClass ≠ .other
      ∧ rest.all (fun k => k.keyClass == first.keyClass) then
      some (keys.mergeSort fun a b => !b.before a)
    else
      none

/-! ## Texts -/

/-- Numbers with a separator. -/
def numbered (ns : List Nat) : String :=
  ", ".intercalate (ns.map toString)

/-- An offset as it is spelled out: universal time by name, any other in whole
days and seconds. -/
def quotedOffset (minutes : Int) : String :=
  if minutes = 0 then "datetime.timezone.utc"
  else
    let past := if minutes < 0 then minutes + DateTime.dayMinutes else minutes
    "datetime.timezone(datetime.timedelta("
      ++ (if minutes < 0 then "days=-1, " else "")
      ++ "seconds=" ++ toString (60 * past) ++ "))"

/-- A time as it is spelled out. Seconds and their parts are left out at the end
where they are zero. -/
def quotedTime (t : DateTime) : String :=
  let fields :=
    [t.date.year, t.date.month, t.date.day, t.hour,
      t.minute] ++ (if t.micro ≠ 0 then [t.second, t.micro]
      else if t.second ≠ 0 then [t.second] else [])
  "datetime.datetime(" ++ numbered fields
    ++ (t.offset.map fun minutes => ", tzinfo=" ++ quotedOffset minutes).getD ""
        ++ ")"

mutual

/-- A value inside another: texts and octets are quoted, dates and times are
spelled out, and what stands around the value is only marked. -/
def quoted : Value → String
  | null => "None"
  | bool b => if b then "True" else "False"
  | int n => toString n
  | float x => FloatLayout.message.text x
  | text s => Text.quoted s
  | points codes => Text.quotedPoints codes
  | date d => "datetime.date(" ++ numbered [d.year, d.month, d.day] ++ ")"
  | time t => quotedTime t
  | bytes octets => Text.quotedOctets octets
  | pair k v => "(" ++ quoted k ++ ", " ++ quoted v ++ ")"
  | set [] => "set()"
  | set items => "\x7b" ++ ", ".intercalate (quotedItems items) ++ "\x7d"
  | list items => "[" ++ ", ".intercalate (quotedItems items) ++ "]"
  | map entries => "\x7b" ++ ", ".intercalate (quotedEntries entries) ++ "\x7d"
  | enclosingList => "[...]"
  | enclosingPair => "(...)"
  | enclosingMap => "\x7b...\x7d"

/-- Every item of a list. -/
def quotedItems : List Value → List String
  | [] => []
  | v :: rest => quoted v :: quotedItems rest

/-- Every entry of a mapping. -/
def quotedEntries : List (Value × Value) → List String
  | [] => []
  | (k, v) :: rest => (quoted k ++ ": " ++ quoted v) :: quotedEntries rest

end

/-- A value as plain text. -/
def plain : Value → String
  | text s => s
  | points codes => String.ofList (Text.joinedChars codes)
  | date d => d.text
  | time t => t.text " "
  | v => quoted v

/-- A text in settings: characters, or code points with halves of surrogate
pairs among them. -/
inductive Word where
  | chars (text : String)
  | points (codes : List Nat)
deriving DecidableEq, Repr

/-- The value that a word is. -/
def ofWord : Word → Value
  | .chars s => text s
  | .points codes => points codes

/-- A value in words. Only what is a text itself keeps halves of pairs. -/
def word : Value → Word
  | points codes => .points codes
  | v => .chars v.plain

/-- Whether an integer has a text: numbers of very many digits are not written
in decimal. -/
def isWritable (n : Int) : Bool :=
  n.natAbs < Nat.pow 10 Numeral.maxDigits

mutual

/-- Whether a value has a text, because every integer in it has one. -/
def hasText : Value → Bool
  | int n => isWritable n
  | list items => itemsHaveText items
  | pair k v => hasText k && hasText v
  | set items => itemsHaveText items
  | map entries => entriesHaveText entries
  | _ => true

/-- Whether every item of a list has a text. -/
def itemsHaveText : List Value → Bool
  | [] => true
  | v :: rest => hasText v && itemsHaveText rest

/-- Whether every key and every value of a mapping has a text. -/
def entriesHaveText : List (Value × Value) → Bool
  | [] => true
  | (k, v) :: rest => hasText k && hasText v && entriesHaveText rest

end

end Value

end LeafSurvey
