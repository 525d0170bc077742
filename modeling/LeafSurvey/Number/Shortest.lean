import LeafSurvey.Number.Binary

/-!
# Shortest decimal text of a binary number

Among the decimals that round to a given binary number, the text uses one with
the fewest digits, and of those the nearest. `Binary.shortest` finds it by
testing, for one digit, two digits and so on, the two neighbours of the number
on that decimal grid. How digits and exponent are laid out is a `FloatLayout`,
one record for each place where such numbers are written.
-/

namespace LeafSurvey

namespace Binary

/-- Compares `a · 10 ^ s` with `b · 2 ^ t`. -/
def compareScaled (a : Nat) (s : Int) (b : Nat) (t : Int) : Ordering :=
  compare (a * tenTo s * twoTo (-t)) (b * twoTo t * tenTo (-s))

/-- The number of quarter units between a mantissa and its lower neighbour's
half way point. Below a power of two the neighbours are twice as close. -/
def lowerGap (m : Nat) (e : Int) : Nat :=
  if m = twoTo 52 ∧ minExponent < e then 1 else 2

/-- Whether `c · 10 ^ s` rounds to `m · 2 ^ e`. The ends of the interval round
to an even mantissa. -/
def roundsTo (m : Nat) (e : Int) (c : Nat) (s : Int) : Bool :=
  let low := compareScaled c s (4 * m - lowerGap m e) (e - 2)
  let high := compareScaled c s (4 * m + 2) (e - 2)
  (low == .gt || (low == .eq && m % 2 == 0))
    && (high == .lt || (high == .eq && m % 2 == 0))

/-- The power of ten just above `m · 2 ^ e`, for a positive mantissa. -/
def decimalMagnitude (m : Nat) (e : Int) : Int :=
  ((Nat.toDigits 10 (m * twoTo e * tenTo 400 / twoTo (-e))).length : Int) - 400

/-- The whole part of `m · 2 ^ e / 10 ^ s`. -/
def gridFloor (m : Nat) (e : Int) (s : Int) : Nat :=
  (m * twoTo e * tenTo (-s)) / (twoTo (-e) * tenTo s)

/-- The grid point with `digits` digits that rounds to `m · 2 ^ e` and lies
nearest to it. -/
def gridPoint? (m : Nat) (e : Int) (digits : Nat) : Option (Nat × Int) :=
  let s := decimalMagnitude m e - digits
  let low := gridFloor m e s
  let high := low + 1
  match roundsTo m e low s, roundsTo m e high s with
  | false, false => none
  | true, false => some (low, s)
  | false, true => some (high, s)
  | true, true =>
    match compareScaled (2 * low + 1) s (2 * m) e with
    | .lt => some (high, s)
    | .gt => some (low, s)
    | .eq => some (if low % 2 = 0 then low else high, s)

/-- The shortest coefficient and power of ten that round to `m · 2 ^ e`.
Seventeen digits always suffice. -/
def shortest (m : Nat) (e : Int) : Nat × Int :=
  ((List.range 17).findSome? fun i => gridPoint? m e (i + 1)).getD (0, 0)

end Binary

/-- How floating-point numbers are laid out in a text. -/
structure FloatLayout where
  /-- Leading digits at this power of ten or above, and below the next field,
  are written positionally. -/
  positionalFrom : Int
  positionalBelow : Int
  /-- The least number of exponent digits. -/
  exponentDigits : Nat
  infinity : String
  nan : String

namespace FloatLayout

/-- Digits without the zeros at their end. -/
def trimmed (digits : List Char) : List Char :=
  (digits.reverse.dropWhile (· == '0')).reverse

/-- Digits with the decimal point after the first `point` of them; one digit at
least stands on each side. -/
def positional (digits : List Char) (point : Int) : List Char :=
  if point ≤ 0 then
    '0' :: '.' :: (List.replicate (-point).toNat '0' ++ digits)
  else if (digits.length : Int) ≤ point then
    digits ++ List.replicate (point.toNat - digits.length) '0' ++ ['.', '0']
  else
    digits.take point.toNat ++ '.' :: digits.drop point.toNat

/-- One digit, the rest after a point, and a signed exponent. -/
def exponential (layout : FloatLayout) (digits : List Char) (power : Int) :
    List Char :=
  let written := Nat.toDigits 10 power.natAbs
  digits.take 1 ++ (if digits.length ≤ 1 then [] else '.' :: digits.drop 1)
    ++ 'e' :: (if power < 0 then '-' else '+')
    :: (List.replicate (layout.exponentDigits - written.length) '0' ++ written)

/-- A positive finite number. -/
def magnitude (layout : FloatLayout) (m : Nat) (e : Int) : List Char :=
  let (c, s) := Binary.shortest m e
  let all := Nat.toDigits 10 c
  let point := s + all.length
  let digits := trimmed all
  if layout.positionalFrom ≤ point - 1 ∧ point - 1 < layout.positionalBelow then
    positional digits point
  else
    layout.exponential digits (point - 1)

/-- The text of a number in a layout. -/
def text (layout : FloatLayout) : Binary → String
  | .nan => layout.nan
  | .infinite negative => (if negative then "-" else "") ++ layout.infinity
  | .finite negative m e =>
    (if negative then "-" else "")
      ++ if m = 0 then "0.0" else String.ofList (layout.magnitude m e)

/-- Numbers in messages: positional from a ten-thousandth to below ten to the
sixteenth. -/
def message : FloatLayout := ⟨-4, 16, 2, "inf", "nan"⟩

/-- Numbers in documents are laid out as in messages, with the words of
documents for the values that are not finite. -/
def document :
    FloatLayout := { message with infinity := "Infinity", nan := "NaN" }

end FloatLayout

end LeafSurvey
