import LeafSurvey.Json.Document
import LeafSurvey.Json.Lexeme

/-!
# Reading a document

`Json.ofBytes?` reads a file that holds exactly one JSON value. The bytes must
be UTF-8, and one byte order mark in front is skipped. Lexemes are taken one by
one by `Position.take`, which keeps the open arrays and objects as a stack of
frames, so a longer text goes on from the position that its front has reached.
The document read is the document as written: repeated keys are all there. The
survey uses it twice, once as it stands, to count the scalars of the text, and
once collapsed.
-/

namespace LeafSurvey.Json

/-- An open array or object: what it holds so far, the last one first. An open
object knows the key whose value comes next. -/
inductive Frame where
  | array (before : List (Document Leaf))
  | object (before : List (String × Document Leaf)) (key : String)
deriving Repr

/-- How far a document has been read. -/
inductive Position where
  /-- A value comes next. -/
  | value (outer : List Frame)
  /-- An array has just been opened. -/
  | firstItem (outer : List Frame)
  /-- An object has just been opened. -/
  | firstKey (outer : List Frame)
  /-- A comma in an object: a key comes next. -/
  | key (before : List (String × Document Leaf)) (outer : List Frame)
  /-- A key has been read: a colon comes next. -/
  | colon (before : List (String × Document Leaf)) (key : String)
      (outer : List Frame)
  /-- A value is complete. -/
  | after (done : Document Leaf) (outer : List Frame)
deriving Repr

namespace Position

/-- Takes a lexeme where a value starts. -/
def takeValue (outer : List Frame) : Lexeme → Option Position
  | .openArray => some (firstItem outer)
  | .openObject => some (firstKey outer)
  | lexeme => lexeme.leaf?.map fun a => after (.leaf a) outer

/-- Takes a lexeme where a key stands. -/
def takeKey (before : List (String × Document Leaf)) (outer : List Frame)
    (lexeme : Lexeme) :
    Option Position :=
  lexeme.string?.map fun k => colon before k outer

/-- Takes a lexeme after a complete value: a comma, or the end of what is
open. -/
def takeAfter (done : Document Leaf) : List Frame → Lexeme → Option Position
  | .array before :: outer, .comma =>
    some (value (.array (done :: before) :: outer))
  | .array before :: outer, .closeArray =>
    some (after (.array (done :: before).reverse) outer)
  | .object before k :: outer, .comma => some (key ((k, done) :: before) outer)
  | .object before k :: outer, .closeObject =>
    some (after (.object ((k, done) :: before).reverse) outer)
  | _, _ => none

/-- Takes one lexeme. -/
def take : Position → Lexeme → Option Position
  | value outer, lexeme => takeValue outer lexeme
  | firstItem outer, .closeArray => some (after (.array []) outer)
  | firstItem outer, lexeme => takeValue (.array [] :: outer) lexeme
  | firstKey outer, .closeObject => some (after (.object []) outer)
  | firstKey outer, lexeme => takeKey [] outer lexeme
  | key before outer, lexeme => takeKey before outer lexeme
  | colon before k outer, .colon => some (value (.object before k :: outer))
  | colon _ _ _, _ => none
  | after done outer, lexeme => takeAfter done outer lexeme

/-- The document, when it is complete. -/
def finish? : Position → Option (Document Leaf)
  | after done [] => some done
  | _ => none

end Position

/-- The document that a text writes. -/
def ofChars? (cs : List Char) : Option (Document Leaf) := do
  let lexemes ← Lexeme.ofChars? cs
  let position ← lexemes.foldlM Position.take (.value [])
  position.finish?

/-- Why a file holds no document. -/
inductive Fault where
  | notUtf8
  | notJson
deriving DecidableEq, Repr

namespace Fault

/-- The fault in words. -/
def message : Fault → String
  | notUtf8 => "not valid UTF-8"
  | notJson => "not exactly one JSON value"

end Fault

/-- The byte order mark. -/
def byteOrderMark : List UInt8 := [0xEF, 0xBB, 0xBF]

/-- The bytes after a byte order mark, if there is one in front. -/
def skipMark (bytes : ByteArray) : ByteArray :=
  if (bytes.extract 0 3).toList = byteOrderMark then bytes.extract 3 bytes.size
  else bytes

/-- The document in a file, as written. -/
def ofBytes? (bytes : ByteArray) : Except Fault (Document Leaf) :=
  match String.fromUTF8? (skipMark bytes) with
  | none => .error .notUtf8
  | some s =>
    match ofChars? s.toList with
    | none => .error .notJson
    | some d => .ok d

end LeafSurvey.Json
