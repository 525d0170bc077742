import LeafSurvey.Number.Numeral
import LeafSurvey.Yaml.ScalarText

/-!
# Tokens of YAML text

The tokens carry the structure that indentation implies: a block collection is
opened by a start token and closed by `blockEnd`, and a key that was recognised
by the colon after it is announced by `key`. This module holds the tokens and
the scanners of the small ones: directives, anchors and tags.
-/

namespace LeafSurvey.Yaml

/-- An instruction before a document. -/
inductive Directive where
  | version (major minor : Nat)
  | handle (name uri : List Char)
  | other
deriving DecidableEq, Repr

/-- A token. The text ends with `streamEnd`, or with the fault that stopped its
scanning. -/
inductive Token where
  | streamEnd
  | fault (cause : Fault)
  | directive (d : Directive)
  | documentStart
  | documentEnd
  | blockSequence
  | blockMapping
  | blockEnd
  | openSequence
  | closeSequence
  | openMapping
  | closeMapping
  | blockEntry
  | flowEntry
  | key
  | value
  | alias (name : List Char)
  | anchor (name : List Char)
  /-- A tag; without handle it is written out in full. -/
  | tag (handle : Option (List Char)) (suffix : List Char)
  /-- A scalar, and whether it is plain. -/
  | scalar (text : Literal) (isPlain : Bool)
deriving DecidableEq, Repr

namespace Scan

/-- Requires that the next character passes a test. -/
def expect (test : Option Char → Bool) (reason : Malformed) : Scan Unit := do
  if test (← peek) then return () else malformed reason

/-- Takes one given character. -/
def expectChar (c : Char) (reason : Malformed) : Scan Unit := do
  expect (· = some c) reason
  skip 1

/-! ## Tags -/

/-- A character of a tag that may stand as it is. -/
def isUriChar (c : Char) : Bool :=
  c.isAlphanum || "-;/?:@&=+$,_.!~*'()[]%".toList.contains c

/-- Bytes written as a percent sign and two hexadecimal digits, one after the
other. -/
def percentBytes : Nat → List UInt8 → Scan (List UInt8)
  | 0, bytes => return bytes
  | n + 1, bytes => do
    if (← peek) = some '%' then
      match (← peekAt 1), (← peekAt 2) with
      | some a, some b =>
        if isHexDigit a && isHexDigit b then
          skip 3
          percentBytes n (bytes ++ [UInt8.ofNat (hexValue [a, b])])
        else malformed .tag
      | _, _ => malformed .tag
    else return bytes

/-- The text of a tag up to a character that no tag holds. -/
def uriText : Nat → List Char → Scan (List Char)
  | 0, text => return text
  | n + 1, text => do
    match ← peek with
    | some '%' =>
      let bytes ← percentBytes (← turns) []
      match String.fromUTF8? ⟨bytes.toArray⟩ with
      | some s => uriText n (text ++ s.toList)
      | none => malformed .tag
    | some c =>
      if isUriChar c then
        skip 1
        uriText n (text ++ [c])
      else return text
    | none => return text

/-- The text of a tag, which is not empty. -/
def uri : Scan (List Char) := do
  let c ← peek
  if (c.map isUriChar).getD false then uriText (← turns) [] else malformed .tag

/-- A handle: an exclamation mark, or a word between two. -/
def handle : Scan (List Char) := do
  expectChar '!' .tag
  if (← peek) = some ' ' then return ['!']
  let word ← takeWhile isWordChar
  expectChar '!' .tag
  return '!' :: word ++ ['!']

/-- A tag, from its exclamation mark on. -/
def tag : Scan Token := do
  let token ← match ← peekAt 1 with
    | some '<' => do
      skip 2
      let text ← uri
      expectChar '>' .tag
      pure (Token.tag none text)
    | c =>
      if atBlank c then do
        skip 1
        pure (Token.tag none ['!'])
      else do
        let word := ((← get).rest.drop 1).takeWhile fun c => !atSpace (some c)
          && c ≠ '!'
        if (← peekAt (1 + word.length)) = some '!' then do
          let name ← handle
          pure (Token.tag (some name) (← uri))
        else do
          skip 1
          pure (Token.tag (some ['!']) (← uri))
  expect atSpace .tag
  return token

/-! ## Anchors -/

/-- The characters that may follow the name of an anchor. -/
def endsAnchor (c : Option Char) : Bool :=
  atBlank c || (c.map fun x => "?:,]\x7d%@\x60".toList.contains x).getD false

/-- The name after the mark of an anchor or an alias. -/
def anchorName : Scan (List Char) := do
  skip 1
  let name ← takeWhile isWordChar
  if name.isEmpty then malformed .anchorName
  expect endsAnchor .anchorName
  return name

/-! ## Directives -/

/-- A number of a version. -/
def versionNumber : Scan Nat := do
  let digits ← takeWhile Char.isDigit
  if digits.isEmpty then malformed .directive
  if Numeral.maxDigits < digits.length then throw (.value .notANumber)
  return natOfDigits 10 digits

/-- A directive, from its percent sign to the end of its line. -/
def directive : Scan Directive := do
  skip 1
  let name ← takeWhile isWordChar
  if name.isEmpty then malformed .directive
  expect atSpace .directive
  let d ← if name = "YAML".toList then do
      skipSpaces
      let major ← versionNumber
      expectChar '.' .directive
      let minor ← versionNumber
      expect atSpace .directive
      pure (Directive.version major minor)
    else if name = "TAG".toList then do
      skipSpaces
      let name ← handle
      expect (· = some ' ') .directive
      skipSpaces
      let text ← uri
      expect atSpace .directive
      pure (Directive.handle name text)
    else do
      discard (takeWhile fun c => !isBreak c)
      pure Directive.other
  skipLineEnd .directive
  return d

end Scan

end LeafSurvey.Yaml
