import LeafSurvey.Leaf
import LeafSurvey.Json.StringText

/-!
# Lexemes of JSON text

Text splits into punctuation, quoted runs and bare runs, with blanks between
them. A quoted run ends at the first quote that no backslash escapes; a bare run
ends where a blank, a mark or a quote stands. Splitting never looks at what a
run says: `Lexeme.string?` and `Lexeme.leaf?` decide that, and refuse what is no
JSON. Because every character is taken up by one step of `Splitter`, splitting a
longer text continues from where splitting its front has stopped.
-/

namespace LeafSurvey.Json

/-- A piece of JSON text. -/
inductive Lexeme where
  | openArray
  | closeArray
  | openObject
  | closeObject
  | comma
  | colon
  /-- The characters between two quotes, escapes and all. -/
  | quoted (raw : List Char)
  /-- A run without blanks, marks and quotes. -/
  | bare (run : List Char)
deriving DecidableEq, Repr

namespace Lexeme

/-- The lexeme of a punctuation mark. -/
def mark? : Char → Option Lexeme
  | '[' => some openArray
  | ']' => some closeArray
  | '\x7b' => some openObject
  | '\x7d' => some closeObject
  | ',' => some comma
  | ':' => some colon
  | _ => none

end Lexeme

/-- The characters between lexemes: the four of the standard, form feed and
vertical tab. -/
def isBlank (c : Char) : Bool :=
  c = ' ' || c = '\t' || c = '\n' || c = '\r' || c = '\x0b' || c = '\x0c'

/-- Where the splitting of a text stands. Runs are kept with their last
character first. -/
inductive Splitting where
  | between
  | quoted (run : List Char) (escaped : Bool)
  | bare (run : List Char)
deriving DecidableEq, Repr

/-- The lexemes found so far, the last one first, and where the splitting
stands. -/
structure Splitter where
  found : List Lexeme
  state : Splitting
deriving DecidableEq, Repr

namespace Splitter

/-- Nothing read yet. -/
def start : Splitter := ⟨[], .between⟩

/-- Takes a character that stands outside all runs. -/
def takeOutside (found : List Lexeme) (c : Char) : Splitter :=
  if isBlank c then ⟨found, .between⟩
  else if c = '"' then ⟨found, .quoted [] false⟩
  else
    match Lexeme.mark? c with
    | some mark => ⟨mark :: found, .between⟩
    | none => ⟨found, .bare [c]⟩

/-- Whether a character ends a bare run. -/
def endsBare (c : Char) : Bool :=
  isBlank c || c = '"' || (Lexeme.mark? c).isSome

/-- Takes one character. -/
def take (s : Splitter) (c : Char) : Splitter :=
  match s.state with
  | .between => takeOutside s.found c
  | .quoted run true => ⟨s.found, .quoted (c :: run) false⟩
  | .quoted run false =>
    if c = '"' then ⟨.quoted run.reverse :: s.found, .between⟩
    else ⟨s.found, .quoted (c :: run) (c = '\\')⟩
  | .bare run =>
    if endsBare c then takeOutside (.bare run.reverse :: s.found) c
    else ⟨s.found, .bare (c :: run)⟩

/-- The lexemes of the text read, unless it stops inside quotes. -/
def finish? (s : Splitter) : Option (List Lexeme) :=
  match s.state with
  | .between => some s.found.reverse
  | .quoted _ _ => none
  | .bare run => some (.bare run.reverse :: s.found).reverse

end Splitter

namespace Lexeme

/-- The lexemes of a text. -/
def ofChars? (cs : List Char) : Option (List Lexeme) :=
  (cs.foldl Splitter.take Splitter.start).finish?

end Lexeme

/-- The numerals of JSON: no plus sign, no needless zero in front, digits on
both sides of a point. -/
def isNumberText (n : Numeral) : Bool :=
  n.sign != .plus && !n.whole.isEmpty
    && (n.whole.length == 1 || n.whole.head? != some '0')
    && n.fraction != some []

/-- A number is an integer when it is written as one, and a decimal
otherwise. -/
def numberLeaf (n : Numeral) : Leaf :=
  if n.isInteger then .integer n.integer else .decimal (Decimal.ofNumeral n)

/-- The leaf that a bare run writes. -/
def bareLeaf? (run : List Char) : Option Leaf :=
  if run = ['n', 'u', 'l', 'l'] then some .null
  else if run = ['t', 'r', 'u', 'e'] then some (.boolean true)
  else if run = ['f', 'a', 'l', 's', 'e'] then some (.boolean false)
  else
    match Numeral.ofChars? run with
    | some n => if isNumberText n then some (numberLeaf n) else none
    | none => none

namespace Lexeme

/-- The string that a quoted run writes. -/
def string? : Lexeme → Option String
  | quoted raw => (unescape raw).map String.ofList
  | _ => none

/-- The leaf that a lexeme writes. -/
def leaf? : Lexeme → Option Leaf
  | quoted raw => (unescape raw).map fun cs => .text (String.ofList cs)
  | bare run => bareLeaf? run
  | _ => none

end Lexeme

end LeafSurvey.Json
