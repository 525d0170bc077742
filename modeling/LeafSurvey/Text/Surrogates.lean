/-!
# Halves of surrogate pairs

The code points from U+D800 to U+DFFF are no characters: two of them in order, a
high and a low half, stand for one character beyond the basic plane. A text
whose code points hold such a half has no characters of its own; `joinedChars`
gives the ones that it stands for.
-/

namespace LeafSurvey.Text

/-- The first half of a pair. -/
def isHighHalf (n : Nat) : Bool :=
  0xD800 ≤ n && n < 0xDC00

/-- The second half of a pair. -/
def isLowHalf (n : Nat) : Bool :=
  0xDC00 ≤ n && n < 0xE000

/-- Half of a pair. -/
def isHalf (n : Nat) : Bool :=
  isHighHalf n || isLowHalf n

/-- The character that two halves stand for together. -/
def joinHalves (high low : Nat) : Char :=
  Char.ofNat (0x10000 + 1024 * (high - 0xD800) + (low - 0xDC00))

/-- The characters of code points, when all of them are characters. -/
def chars? (points : List Nat) : Option (List Char) :=
  if points.any isHalf then none else some (points.map Char.ofNat)

/-- The character of a code point, and the replacement character for a half. -/
def charOrReplacement (n : Nat) : Char :=
  if isHalf n then '\ufffd' else Char.ofNat n

/-- The characters that code points stand for. Pairs are joined, and a half
without its other one is replaced. -/
def joinedChars : List Nat → List Char
  | [] => []
  | [p] => [charOrReplacement p]
  | p :: q :: rest =>
    if isHighHalf p && isLowHalf q then joinHalves p q :: joinedChars rest
    else charOrReplacement p :: joinedChars (q :: rest)

end LeafSurvey.Text
