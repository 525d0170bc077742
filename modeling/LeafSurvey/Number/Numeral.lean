/-!
# Numerals

A numeral is a number as it is written in decimal digits: an optional sign,
whole digits, an optional fraction and an optional exponent. Nothing is
evaluated here; a numeral keeps every digit, so the readers of documents and of
settings can each apply their own rules to the same spelling. `Numeral.ofChars?`
reads a spelling, `Numeral.chars` writes it again.
-/

namespace LeafSurvey

/-- The sign written in front of digits. -/
inductive Sign where
  | absent
  | plus
  | minus
deriving DecidableEq, Repr

namespace Sign

/-- The sign as written. -/
def chars : Sign → List Char
  | absent => []
  | plus => ['+']
  | minus => ['-']

/-- Splits a sign off the front. -/
def split : List Char → Sign × List Char
  | '+' :: rest => (plus, rest)
  | '-' :: rest => (minus, rest)
  | rest => (absent, rest)

/-- Negates a number after a minus sign. -/
def apply (sign : Sign) (n : Nat) : Int :=
  if sign = minus then -(n : Int) else n

end Sign

/-- The value of a character as a digit, up to `z` for thirty-five. -/
def digitValue (c : Char) : Nat :=
  if c.isDigit then c.toNat - '0'.toNat
  else if 'a' ≤ c ∧ c ≤ 'z' then c.toNat - 'a'.toNat + 10
  else if 'A' ≤ c ∧ c ≤ 'Z' then c.toNat - 'A'.toNat + 10
  else 36

/-- The natural number that digits denote in a base, the most significant digit
first. -/
def natOfDigits (base : Nat) (digits : List Char) : Nat :=
  digits.foldl (fun n c => base * n + digitValue c) 0

/-- The exponent part of a numeral; its digits are never empty in a numeral that
was read. -/
structure Exponent where
  /-- The letter that introduces the exponent. -/
  letter : Char
  sign : Sign
  digits : List Char
deriving DecidableEq, Repr

namespace Exponent

/-- The exponent as written. -/
def chars (e : Exponent) : List Char :=
  e.letter :: (e.sign.chars ++ e.digits)

/-- The power of ten that the exponent names. -/
def value (e : Exponent) : Int :=
  e.sign.apply (natOfDigits 10 e.digits)

/-- Reads an exponent that fills the whole list: `none` inside when there is
none. -/
def ofChars? : List Char → Option (Option Exponent)
  | [] => some none
  | c :: rest =>
    let (sign, digits) := Sign.split rest
    if (c = 'e' || c = 'E') && !digits.isEmpty && digits.all Char.isDigit then
      some (some ⟨c, sign, digits⟩)
    else
      none

end Exponent

/-- A number as written in decimal digits. -/
structure Numeral where
  sign : Sign
  whole : List Char
  fraction : Option (List Char)
  exponent : Option Exponent
deriving DecidableEq, Repr

namespace Numeral

/-- The digits after the point. -/
def fractionDigits (n : Numeral) : List Char :=
  n.fraction.getD []

/-- The numeral as written. -/
def chars (n : Numeral) : List Char :=
  n.sign.chars ++ n.whole ++ (n.fraction.map ('.' :: ·)).getD []
    ++ (n.exponent.map Exponent.chars).getD []

/-- Splits a fraction off the front: a point and the digits after it. -/
def splitFraction : List Char → Option (List Char) × List Char
  | '.' :: rest =>
    (some (rest.takeWhile Char.isDigit), rest.dropWhile Char.isDigit)
  | rest => (none, rest)

/-- Reads a numeral that fills the whole list. At least one digit stands before
the exponent. -/
def ofChars? (cs : List Char) : Option Numeral :=
  let (sign, rest) := Sign.split cs
  let whole := rest.takeWhile Char.isDigit
  let (fraction, tail) := splitFraction (rest.dropWhile Char.isDigit)
  if whole.isEmpty && (fraction.getD []).isEmpty then
    none
  else
    (Exponent.ofChars? tail).map fun exponent =>
      ⟨sign, whole, fraction, exponent⟩

/-- A numeral without point and exponent denotes an integer. -/
def isInteger (n : Numeral) : Bool :=
  n.fraction.isNone && n.exponent.isNone

/-- The greatest number of decimal digits that an integer is read and written
with. -/
def maxDigits : Nat := 4300

/-- The integer written by the whole digits and the sign. -/
def integer (n : Numeral) : Int :=
  n.sign.apply (natOfDigits 10 n.whole)

end Numeral

end LeafSurvey
