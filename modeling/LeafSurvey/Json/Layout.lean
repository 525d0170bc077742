import LeafSurvey.Emission
import LeafSurvey.Value
import LeafSurvey.Json.StringText

/-!
# Laying out values as JSON

Values are written with two blanks of indentation for each level and one item or
member on a line; empty lists and mappings stay on one line. The text is
produced from front to back and breaks off where a value or a key has no JSON
form, so what stands before that point is known. Keys that are not texts are
written as texts, in the words of JSON. Integers of too many digits and texts
that are no characters have no form either, nor has a list or a mapping inside
itself. A pair is a list of two.
-/

namespace LeafSurvey.Json

/-- Why a layout broke off. -/
inductive LayoutFault where
  | value (v : Value)
  | key (k : Value)
deriving Repr

/-- Characters of a layout. -/
abbrev Layout := Emission LayoutFault Char

/-- A new line with its indentation. -/
def lineBreak (level : Nat) : List Char :=
  '\n' :: List.replicate (2 * level) ' '

/-- An integer in digits. -/
def intText (n : Int) : List Char :=
  (if n < 0 then ['-'] else []) ++ Nat.toDigits 10 n.natAbs

/-- A truth value. -/
def boolText (b : Bool) : List Char :=
  if b then ['t', 'r', 'u', 'e'] else ['f', 'a', 'l', 's', 'e']

/-- The null. -/
def nullText : List Char := ['n', 'u', 'l', 'l']

/-- A floating-point number. -/
def floatText (x : Binary) : List Char :=
  (FloatLayout.document.text x).toList

/-- The text of a key. -/
def keyText? : Value → Option String
  | .text s => some s
  | .null => some (String.ofList nullText)
  | .bool b => some (String.ofList (boolText b))
  | .int n =>
    if Value.isWritable n then some (String.ofList (intText n)) else none
  | .float x => some (String.ofList (floatText x))
  | _ => none

/-- Whether a text is what has no form: it is met only after the separator
before it. -/
def isText (v : Value) : Bool :=
  v.codes?.isSome

/-- A key and its colon behind a separator. The separator is held back when the
key has no text. -/
def layoutKey (separator : List Char) (k : Value) : Layout :=
  match keyText? k with
  | some s => .ofList (separator ++ stringText s ++ [':', ' '])
  | none =>
    if isText k then .ofList separator ++ .fail (.key k) else .fail (.key k)

/-- Whether an item is written in one piece with the separator before it, and
has no form. -/
def isUnwritable : Value → Bool
  | .int n => !Value.isWritable n
  | .points _ => true
  | _ => false

/-- A separator and the layout of the item after it. The separator is held back
with an item that would be one piece with it. -/
def behind (separator : List Char) (item : Value) (l : Layout) : Layout :=
  if isUnwritable item then l else .ofList separator ++ l

mutual

/-- A value at an indentation level. -/
def layout (level : Nat) : Value → Layout
  | .null => .ofList nullText
  | .bool b => .ofList (boolText b)
  | .int n =>
    if Value.isWritable n then .ofList (intText n) else .fail (.value (.int n))
  | .float x => .ofList (floatText x)
  | .text s => .ofList (stringText s)
  | .points codes => .fail (.value (.points codes))
  | .date d => .fail (.value (.date d))
  | .time t => .fail (.value (.time t))
  | .bytes octets => .fail (.value (.bytes octets))
  | .set items => .fail (.value (.set items))
  | .enclosingList => .fail (.value .enclosingList)
  | .enclosingPair => .fail (.value .enclosingPair)
  | .enclosingMap => .fail (.value .enclosingMap)
  | .pair k v =>
    behind ('[' :: lineBreak (level + 1)) k (layout (level + 1) k)
      ++ behind (',' :: lineBreak (level + 1)) v (layout (level + 1) v)
      ++ .ofList (lineBreak level ++ [']'])
  | .list [] => .ofList ['[', ']']
  | .list (v :: rest) =>
    behind ('[' :: lineBreak (level + 1)) v (layout (level + 1) v)
      ++ layoutItems (level + 1) rest
      ++ .ofList (lineBreak level ++ [']'])
  | .map [] => .ofList ['\x7b', '\x7d']
  | .map ((k, v) :: rest) =>
    .ofList ('\x7b' :: lineBreak (level + 1)) ++ layoutKey [] k
      ++ layout (level + 1) v
      ++ layoutEntries (level + 1) rest ++ .ofList (lineBreak level ++ ['\x7d'])

/-- The items after the first. -/
def layoutItems (level : Nat) : List Value → Layout
  | [] => .empty
  | v :: rest =>
    behind (',' :: lineBreak level) v (layout level v) ++ layoutItems level rest

/-- The entries after the first. -/
def layoutEntries (level : Nat) : List (Value × Value) → Layout
  | [] => .empty
  | (k, v) :: rest =>
    layoutKey (',' :: lineBreak level) k ++ layout level v
      ++ layoutEntries level rest

end

/-- The text of a file that holds a value: its layout and a line break. -/
def fileText (v : Value) : Layout :=
  layout 0 v ++ .ofList ['\n']

end LeafSurvey.Json
