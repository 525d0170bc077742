import LeafSurvey.Number.Numeral

/-!
# Exact decimals

A decimal is a sign, a coefficient and a power of ten. It keeps trailing zeros
and the sign of zero, so a numeral read into it loses nothing but its spelling.
`Decimal.text` writes it: plainly while the exponent is not positive and at most
six digits stand between the point and the first digit, and in scientific form
otherwise.
-/

namespace LeafSurvey

/-- The number `± coefficient · 10 ^ exponent`, with its representation. -/
structure Decimal where
  negative : Bool
  coefficient : Nat
  exponent : Int
deriving DecidableEq, Repr

namespace Decimal

/-- An integer is a decimal of exponent zero; there is no negative zero among
them. -/
def ofInt (n : Int) : Decimal :=
  ⟨decide (n < 0), n.natAbs, 0⟩

/-- The decimal that a numeral denotes. Fraction digits extend the coefficient
and lower the exponent. -/
def ofNumeral (n : Numeral) : Decimal where
  negative := n.sign == .minus
  coefficient := natOfDigits 10 (n.whole ++ n.fractionDigits)
  exponent := (n.exponent.map Exponent.value).getD 0 - n.fractionDigits.length

/-- Reads a decimal from its written form. -/
def ofText? (text : String) : Option Decimal :=
  (Numeral.ofChars? text.toList).map ofNumeral

/-- The coefficient in decimal digits, without leading zeros. -/
def digits (d : Decimal) : List Char :=
  Nat.toDigits 10 d.coefficient

/-- The power of ten of the leading digit. -/
def adjusted (d : Decimal) : Int :=
  d.exponent + d.digits.length - 1

/-- Digits with `places` of them after the point; no point when there are
none. -/
def plain (digits : List Char) (places : Nat) : List Char :=
  if places = 0 then digits
  else
    let padded := List.replicate (places + 1 - digits.length) '0' ++ digits
    padded.take (padded.length - places) ++ '.'
      :: padded.drop (padded.length - places)

/-- An exponent with its sign always written. -/
def exponentChars (e : Int) : List Char :=
  (if e < 0 then '-' else '+') :: Nat.toDigits 10 e.natAbs

/-- One digit, the rest after a point, and the power of ten. -/
def scientific (digits : List Char) (power : Int) : List Char :=
  digits.take 1 ++ (if digits.length ≤ 1 then [] else '.' :: digits.drop 1)
    ++ 'E' :: exponentChars power

/-- The written form as characters. -/
def chars (d : Decimal) : List Char :=
  (if d.negative then ['-'] else []) ++
    if d.exponent ≤ 0 ∧ -6 ≤ d.adjusted then plain d.digits d.exponent.natAbs
    else scientific d.digits d.adjusted

/-- The written form. -/
def text (d : Decimal) : String :=
  String.ofList d.chars

end Decimal

end LeafSurvey
