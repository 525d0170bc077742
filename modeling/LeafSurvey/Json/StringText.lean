import LeafSurvey.Text.Surrogates

/-!
# Strings as JSON text

Between its quotes a string may write any character but the quote, the backslash
and the controls as itself; these are written by an escape, and any other may
be. `escape` writes only what must be escaped, by name where there is one and by
number otherwise. `unescape` reads every escape, joining the two halves of a
character beyond the basic plane.
-/

namespace LeafSurvey.Json

/-- The value of a hexadecimal digit. -/
def hexDigit? (c : Char) : Option Nat :=
  if '0' ≤ c ∧ c ≤ '9' then some (c.toNat - '0'.toNat)
  else if 'a' ≤ c ∧ c ≤ 'f' then some (c.toNat - 'a'.toNat + 10)
  else if 'A' ≤ c ∧ c ≤ 'F' then some (c.toNat - 'A'.toNat + 10)
  else none

/-- The number written by four hexadecimal digits. -/
def hexQuad? (a b c d : Char) : Option Nat := do
  let a ← hexDigit? a
  let b ← hexDigit? b
  let c ← hexDigit? c
  let d ← hexDigit? d
  return 4096 * a + 256 * b + 16 * c + d

/-- The character of a one-letter escape. -/
def namedEscape? : Char → Option Char
  | '"' => some '"'
  | '\\' => some '\\'
  | '/' => some '/'
  | 'b' => some '\x08'
  | 'f' => some '\x0c'
  | 'n' => some '\n'
  | 'r' => some '\r'
  | 't' => some '\t'
  | _ => none

/-- The characters that the text between two quotes stands for. A half of a
character that stands alone is refused. -/
def unescape : List Char → Option (List Char)
  | [] => some []
  | '\\' :: 'u' :: a :: b :: c :: d :: rest =>
    match hexQuad? a b c d with
    | none => none
    | some n =>
      if Text.isHighHalf n then
        match rest with
        | '\\' :: 'u' :: e :: f :: g :: h :: more =>
          match hexQuad? e f g h with
          | some m =>
            if Text.isLowHalf m then
              (unescape more).map (Text.joinHalves n m :: ·)
            else none
          | none => none
        | _ => none
      else if Text.isLowHalf n then none
      else (unescape rest).map (Char.ofNat n :: ·)
  | '\\' :: e :: rest =>
    match namedEscape? e with
    | some c => (unescape rest).map (c :: ·)
    | none => none
  | c :: rest =>
    if c = '\\' ∨ c = '"' ∨ c.toNat < 0x20 then none
    else (unescape rest).map (c :: ·)

/-- The lower-case hexadecimal digit of a number below sixteen. -/
def hexChar (n : Nat) : Char :=
  Nat.digitChar n

/-- The text of one character. -/
def escapeChar (c : Char) : List Char :=
  if c = '"' then ['\\', '"']
  else if c = '\\' then ['\\', '\\']
  else if c = '\n' then ['\\', 'n']
  else if c = '\r' then ['\\', 'r']
  else if c = '\t' then ['\\', 't']
  else if c = '\x08' then ['\\', 'b']
  else if c = '\x0c' then ['\\', 'f']
  else if c.toNat < 0x20 then
    ['\\', 'u', '0', '0', hexChar (c.toNat / 16), hexChar (c.toNat % 16)]
  else [c]

/-- The text between quotes that stands for some characters. -/
def escape (cs : List Char) : List Char :=
  cs.flatMap escapeChar

/-- A string between its quotes. -/
def stringText (s : String) : List Char :=
  '"' :: (escape s.toList ++ ['"'])

end LeafSurvey.Json
