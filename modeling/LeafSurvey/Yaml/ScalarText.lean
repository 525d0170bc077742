import LeafSurvey.Yaml.Cursor
import LeafSurvey.Yaml.Literal

/-!
# Scalars in YAML text

A scalar is written plain, between quotes, or as an indented block. Each form
folds lines in its own way: a single line end inside plain and quoted text
becomes a space and each further one a line feed, a literal block keeps its line
ends, and a folded block joins lines that do not start with a blank. Quoted text
is collected by code points, since its escapes can write halves of surrogate
pairs. The loops are bounded by the length of the text that is left, of which
each turn takes some.
-/

namespace LeafSurvey.Yaml

namespace Scan

/-- Turns of a loop, at most as many as characters are left and one more. -/
def turns : Scan Nat := do
  return (← get).rest.length + 1

/-! ## Plain scalars -/

/-- The characters that mark structure inside brackets. -/
def isFlowMark (c : Char) : Bool :=
  c = ',' || c = '[' || c = ']' || c = '\x7b' || c = '\x7d'

/-- The number of characters of a plain run: up to a blank, a colon that ends a
key, or a mark of an enclosing bracket. -/
def plainLength (inFlow : Bool) : List Char → Nat
  | [] => 0
  | c :: rest =>
    if atBlank (some c)
        || (c = ':' && (atBlank rest.head?
          || (inFlow && (rest.head?.map isFlowMark).getD false)))
        || (inFlow && (isFlowMark c || c = '?')) then 0
    else plainLength inFlow rest + 1

/-- Passes over the line ends and indentation inside plain text and collects the
line ends; `none` when a document separator starts a line. -/
def plainBreaks : Nat → List Char → Scan (Option (List Char))
  | 0, breaks => return some breaks
  | n + 1, breaks => do
    match ← peek with
    | some ' ' => skip 1; plainBreaks n breaks
    | c =>
      if (c.map isBreak).getD false then
        let more ← lineBreak
        if ← atSeparator then return none else plainBreaks n (breaks ++ more)
      else return some breaks

/-- Folds a line end and the line ends after it. -/
def folded (first : List Char) (more : List Char) : List Char :=
  if first ≠ ['\n'] then first ++ more
  else if more.isEmpty then [' '] else more

/-- Passes over the blanks after a plain run: the text they stand for, and
whether a line ended. -/
def plainSpaces : Scan (List Char × Bool) := do
  let spaces ← takeWhile (· = ' ')
  if ((← peek).map isBreak).getD false then
    let first ← lineBreak
    if ← atSeparator then return ([], true)
    match ← plainBreaks (← turns) [] with
    | none => return ([], true)
    | some more => return (folded first more, true)
  else
    return (spaces, false)

/-- The rest of a plain scalar at an indentation: its text, and whether a new
line has begun after it. `gap` is the text between the run before and the
next. -/
def plainRuns (inFlow : Bool) (indent : Int) :
    Nat → List Char → List Char → Bool →
    Scan (List Char × Bool)
  | 0, text, _, lineEnded => return (text, lineEnded)
  | n + 1, text, gap, lineEnded => do
    if (← peek) = some '#' then return (text, lineEnded)
    let line := (← get).rest
    let length := plainLength inFlow line
    if (← peekAt length) = some ':' then discard (peekAt (length + 1))
    if length = 0 then return (text, lineEnded)
    skip length
    let text := text ++ gap ++ line.take length
    let (gap, lineEnded) ← plainSpaces
    let column := (← get).column
    if gap.isEmpty || (← peek) = some '#'
      || (!inFlow && (column : Int) < indent) then
      return (text, lineEnded)
    plainRuns inFlow indent n text gap lineEnded

/-- A plain scalar: its text, and whether a new line has begun after it. -/
def plainScalar (inFlow : Bool) (indent : Int) : Scan (List Char × Bool) := do
  plainRuns inFlow indent (← turns) [] [] false

/-! ## Quoted scalars -/

/-- The character of a one-letter escape between double quotes. -/
def namedEscape? : Char → Option Char
  | '0' => some '\x00'
  | 'a' => some '\x07'
  | 'b' => some '\x08'
  | 't' => some '\t'
  | '\t' => some '\t'
  | 'n' => some '\n'
  | 'v' => some '\x0b'
  | 'f' => some '\x0c'
  | 'r' => some '\r'
  | 'e' => some '\x1b'
  | ' ' => some ' '
  | '"' => some '"'
  | '\\' => some '\\'
  | '/' => some '/'
  | 'N' => some '\x85'
  | '_' => some '\xa0'
  | 'L' => some '\u2028'
  | 'P' => some '\u2029'
  | _ => none

/-- How many hexadecimal digits follow the letter of an escape by number. -/
def numberedEscape? : Char → Option Nat
  | 'x' => some 2
  | 'u' => some 4
  | 'U' => some 8
  | _ => none

/-- The number of hexadecimal digits. -/
def hexValue (digits : List Char) : Nat :=
  digits.foldl (fun n c => 16 * n +
    (if c.isDigit then c.toNat - '0'.toNat
     else if 'a' ≤ c then c.toNat - 'a'.toNat + 10
     else c.toNat - 'A'.toNat + 10)) 0

/-- Checks that a number is a code point. -/
def codePoint (n : Nat) : Scan Nat :=
  if 0x7FFFFFFF < n then throw (.value .noSuchNumber)
  else if 0x10FFFF < n then throw (.value .noSuchCharacter)
  else return n

/-- The code points of characters. -/
def codes (cs : List Char) : List Nat :=
  cs.map Char.toNat

/-- Passes over the line ends inside quotes, with the blanks that start the
lines. -/
def quotedBreaks : Nat → List Char → Scan (List Char)
  | 0, breaks => return breaks
  | n + 1, breaks => do
    if ← atSeparator then malformed .quotedSeparator
    discard (takeWhile fun c => c = ' ' || c = '\t')
    match ← lineBreak with
    | [] => return breaks
    | more => quotedBreaks n (breaks ++ more)

/-- The blanks inside quotes, folded when a line ends among them. -/
def quotedSpaces : Scan (List Char) := do
  let spaces ← takeWhile fun c => c = ' ' || c = '\t'
  match ← peek with
  | none => malformed .unclosedQuote
  | some c =>
    if isBreak c then
      let first ← lineBreak
      return folded first (← quotedBreaks (← turns) [])
    else
      return spaces

/-- The number of an escape by number, after its letter. -/
def escapedNumber (count : Nat) : Scan Nat := do
  let digits := (← get).rest.take count
  let digits := digits.takeWhile isHexDigit
  if digits.length = count then
    let n ← codePoint (hexValue digits)
    skip count
    return n
  else
    discard (peekAt digits.length)
    malformed .escape

/-- An escape after its backslash. -/
def escaped : Scan (List Nat) := do
  match ← peek with
  | none => malformed .escape
  | some c =>
    match namedEscape? c, numberedEscape? c with
    | some x, _ => skip 1; return [x.toNat]
    | none, some count => skip 1; return [← escapedNumber count]
    | none, none =>
      if isBreak c then
        discard lineBreak
        return codes (← quotedBreaks (← turns) [])
      else malformed .escape

/-- The text inside quotes up to the next blank or the closing quote. -/
def quotedRun (quote : Char) : Nat → List Nat → Scan (List Nat)
  | 0, text => return text
  | n + 1, text => do
    match ← peek with
    | none => return text
    | some c =>
      if c = quote then
        if quote = '\'' ∧ (← peekAt 1) = some '\'' then
          skip 2
          quotedRun quote n (text ++ codes ['\''])
        else
          return text
      else if quote = '"' ∧ c = '\\' then
        skip 1
        let more ← escaped
        quotedRun quote n (text ++ more)
      else if atBlank (some c) then
        return text
      else
        skip 1
        quotedRun quote n (text ++ codes [c])

/-- The rest of a quoted scalar, up to its closing quote. -/
def quotedRest (quote : Char) : Nat → List Nat → Scan (List Nat)
  | 0, text => return text
  | n + 1, text => do
    if (← peek) = some quote then
      skip 1
      return text
    let spaces ← quotedSpaces
    let run ← quotedRun quote (← turns) []
    quotedRest quote n (text ++ codes spaces ++ run)

/-- A quoted scalar from its opening quote on. -/
def quotedScalar (quote : Char) : Scan Literal := do
  skip 1
  let run ← quotedRun quote (← turns) []
  return .ofPoints (← quotedRest quote (← turns) run)

/-! ## Block scalars -/

/-- What becomes of the line ends at the end of a block. -/
inductive Chomping where
  | strip
  | clip
  | keep
deriving DecidableEq, Repr

/-- The chomping that a sign in the header asks for. -/
def chomping : Scan Chomping := do
  match ← peek with
  | some '+' => skip 1; return .keep
  | some '-' => skip 1; return .strip
  | _ => return .clip

/-- The indentation that a digit in the header asks for. -/
def blockIncrement : Scan (Option Nat) := do
  match ← peek with
  | some '0' => malformed .blockHeader
  | some c =>
    if c.isDigit then
      skip 1
      return some (c.toNat - '0'.toNat)
    else return none
  | none => return none

/-- The header of a block: a sign and a digit in either order. -/
def blockHeader : Scan (Chomping × Option Nat) := do
  let chomp ← chomping
  let increment ← blockIncrement
  let chomp ← if chomp = .clip ∧ increment.isSome then chomping else pure chomp
  if atSpace (← peek) then return (chomp, increment) else malformed .blockHeader

/-- The line ends before the first line of a block, and the greatest column that
spaces among them reach. -/
def blockLead : Nat → List Char → Nat → Scan (List Char × Nat)
  | 0, breaks, widest => return (breaks, widest)
  | n + 1, breaks, widest => do
    match ← peek with
    | some ' ' =>
      skip 1
      blockLead n breaks (max widest (← get).column)
    | _ =>
      match ← lineBreak with
      | [] => return (breaks, widest)
      | more => blockLead n (breaks ++ more) widest

/-- Passes over spaces up to an indentation. -/
def skipIndent (indent : Nat) : Scan Unit := do
  let c ← get
  skip ((c.rest.take (indent - c.column)).takeWhile (· = ' ')).length

/-- The line ends between two lines of a block. -/
def blockBreaks (indent : Nat) : Nat → List Char → Scan (List Char)
  | 0, breaks => return breaks
  | n + 1, breaks => do
    skipIndent indent
    match ← lineBreak with
    | [] => return breaks
    | more => blockBreaks indent n (breaks ++ more)

/-- A blank that starts a line of a block. -/
def startsBlank : Scan Bool := do
  let c ← peek
  return c = some ' ' || c = some '\t'

/-- Whether a line of a block starts here: at its indentation, and not at the
end of the text. -/
def atBlockLine (indent : Nat) : Scan Bool := do
  return (← get).column = indent && (← peek).isSome

/-- The lines of a block. `breaks` are the line ends before the line that comes
next; the answer ends with the last line's own end and the line ends after it,
apart. -/
def blockLines (isFolded : Bool) (indent : Nat) :
    Nat → List Char → List Char → List Char →
    Scan (List Char × List Char × List Char)
  | 0, text, lineEnd, breaks => return (text, lineEnd, breaks)
  | n + 1, text, lineEnd, breaks => do
    if !(← atBlockLine indent) then return (text, lineEnd, breaks)
    let blankStart ← startsBlank
    let line ← takeWhile fun x => !isBreak x
    let text := text ++ breaks ++ line
    let lineEnd ← lineBreak
    let breaks ← blockBreaks indent (← turns) []
    if !(← atBlockLine indent) then return (text, lineEnd, breaks)
    let joins := isFolded && lineEnd = ['\n'] && !blankStart && !(← startsBlank)
    let glue := if joins then (if breaks.isEmpty then [' '] else [])
      else lineEnd
    blockLines isFolded indent n (text ++ glue) lineEnd breaks

/-- A block scalar from its mark on, inside a node at an indentation. -/
def blockScalar (isFolded : Bool) (parent : Int) : Scan (List Char) := do
  skip 1
  let (chomp, increment) ← blockHeader
  skipLineEnd .blockHeader
  let least := max (parent + 1).toNat 1
  let (breaks, indent) ← match increment with
    | none => do
      let (breaks, widest) ← blockLead (← turns) [] 0
      pure (breaks, max least widest)
    | some k => do
      let indent := least + k - 1
      pure (← blockBreaks indent (← turns) [], indent)
  let (text, lineEnd,
      breaks) ← blockLines isFolded indent (← turns) [] [] breaks
  match chomp with
  | .strip => return text
  | .clip => return text ++ lineEnd
  | .keep => return text ++ lineEnd ++ breaks

end Scan

end LeafSurvey.Yaml
