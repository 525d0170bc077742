import LeafSurvey.Yaml.Malformed

/-!
# Reading position in a YAML text

A cursor is the text still to be read with the line, column and index of its
first character. Lines end at a line feed, a carriage return, the pair of both,
or one of three breaks of Unicode; a byte order mark takes no column. A text may
be known only up to a point beyond which it is faulty; the fault is met when
reading needs a character from there. A `Scan` is a computation that moves a
cursor and may find a fault.
-/

namespace LeafSurvey.Yaml

/-- A character that ends a line. -/
def isBreak (c : Char) : Bool :=
  c = '\n' || c = '\r' || c = '\x85' || c = '\u2028' || c = '\u2029'

/-- No character, or one that ends a line. -/
def atBreak : Option Char → Bool
  | none => true
  | some c => isBreak c

/-- No character, a space, or a line end. -/
def atSpace : Option Char → Bool
  | some ' ' => true
  | c => atBreak c

/-- No character, a space, a tab or a line end. -/
def atBlank : Option Char → Bool
  | some '\t' => true
  | c => atSpace c

/-- The characters that a text may hold. -/
def isPrintable (c : Char) : Bool :=
  let n := c.toNat
  n = 0x09 || n = 0x0A || n = 0x0D || (0x20 ≤ n && n ≤ 0x7E) || n = 0x85
    || (0xA0 ≤ n && n ≤ 0xD7FF) || (0xE000 ≤ n && n ≤ 0xFFFD) || 0x10000 ≤ n

/-- A letter, digit, hyphen or underscore of ASCII. -/
def isWordChar (c : Char) : Bool :=
  c.isAlphanum || c = '-' || c = '_'

/-- A hexadecimal digit. -/
def isHexDigit (c : Char) : Bool :=
  c.isDigit || ('a' ≤ c && c ≤ 'f') || ('A' ≤ c && c ≤ 'F')

/-- The rest of a text and where it starts. -/
structure Cursor where
  rest : List Char
  /-- What is met behind the last character in place of the text's end. -/
  beyond : Option Fault
  index : Nat
  line : Nat
  column : Nat
deriving DecidableEq, Repr

namespace Cursor

/-- The cursor after one more character. -/
def next (c : Cursor) : Cursor :=
  match c.rest with
  | [] => c
  | x :: rest =>
    if isBreak x && !(x = '\r' && rest.head? = some '\n') then
      { c with rest, index := c.index + 1, line := c.line + 1, column := 0 }
    else if x = '\ufeff' then { c with rest, index := c.index + 1 }
    else { c with rest, index := c.index + 1, column := c.column + 1 }

/-- The cursor after some more characters. -/
def forward (c : Cursor) : Nat → Cursor
  | 0 => c
  | n + 1 => c.next.forward n

/-- The start of a text. A byte order mark in front is passed over. -/
def ofText (cs : List Char) (beyond : Option Fault) : Cursor :=
  let c : Cursor := ⟨cs, beyond, 0, 0, 0⟩
  if cs.head? = some '\ufeff' then c.next else c

end Cursor

/-- A computation that moves a cursor. -/
abbrev Scan := StateT Cursor (Except Fault)

namespace Scan

/-- Stops at text that is not YAML. -/
def malformed {α : Type} (reason : Malformed) : Scan α :=
  throw (.malformed reason)

/-- The character some places ahead; `none` at the end of the text. -/
def peekAt (n : Nat) : Scan (Option Char) := do
  let c ← get
  match c.rest[n]?, c.beyond with
  | some x, _ => return some x
  | none, some cause => throw cause
  | none, none => return none

/-- The next character. -/
def peek : Scan (Option Char) :=
  peekAt 0

/-- The next characters, at most `n + 1`. -/
def ahead (n : Nat) : Scan (List Char) := do
  discard (peekAt n)
  return (← get).rest.take (n + 1)

/-- Passes over some characters. The one after them is looked at. -/
def skip (n : Nat) : Scan Unit := do
  discard (peekAt n)
  modify fun c => c.forward n

/-- Takes the characters up to the first that fails a test. -/
def takeWhile (p : Char → Bool) : Scan (List Char) := do
  let taken := (← get).rest.takeWhile p
  skip taken.length
  return taken

/-- Passes over spaces. -/
def skipSpaces : Scan Unit :=
  discard (takeWhile (· = ' '))

/-- Passes over a comment, if one starts here. -/
def skipComment : Scan Unit := do
  if (← peek) = some '#' then discard (takeWhile fun c => !isBreak c)

/-- Takes a line end, if there is one, and answers what it counts as: a line
feed, or one of the two breaks that keep their character. -/
def lineBreak : Scan (List Char) := do
  match ← peek with
  | none => return []
  | some c =>
    if c = '\u2028' ∨ c = '\u2029' then
      skip 1
      return [c]
    else if isBreak c then
      if (← ahead 1) = ['\r', '\n'] then skip 2 else skip 1
      return ['\n']
    else
      return []

/-- Passes over spaces and a comment to the end of the line. -/
def skipLineEnd (reason : Malformed) : Scan Unit := do
  skipSpaces
  skipComment
  if atBreak (← peek) then discard lineBreak else malformed reason

/-- Whether a mark that separates documents stands here: three hyphens or dots
and then a blank. -/
def atSeparator : Scan Bool := do
  let mark ← ahead 2
  if mark = ['-', '-', '-'] || mark = ['.', '.', '.'] then
    return atBlank (← peekAt 3)
  else return false

end Scan

end LeafSurvey.Yaml
