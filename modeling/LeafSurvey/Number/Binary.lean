import LeafSurvey.Number.Decimal

/-!
# Binary floating point, exactly

Settings may hold floating-point numbers of 53 binary digits. A finite one is
kept as an integer times a power of two, so that reading, adding, comparing and
writing are exact integer arithmetic. Every rounding is to the nearest value
with ties to the even mantissa.
-/

namespace LeafSurvey

/-- A floating-point value of 53-bit precision and 11-bit exponent. A finite
value is `± mantissa · 2 ^ exponent`; it is kept with the largest mantissa below
`2 ^ 53` that its least exponent allows. -/
inductive Binary where
  | nan
  | infinite (negative : Bool)
  | finite (negative : Bool) (mantissa : Nat) (exponent : Int)
deriving DecidableEq, Repr

namespace Binary

/-- The least exponent of a finite value. -/
def minExponent : Int := -1074

/-- The greatest exponent of a finite value. -/
def maxExponent : Int := 971

/-- The quotient rounded to the nearest integer, a half to the even one. -/
def roundDiv (num den : Nat) : Nat :=
  let q := num / den
  let twice := 2 * (num % den)
  if twice < den ∨ (twice = den ∧ q % 2 = 0) then q else q + 1

/-- The power of two with an exponent, and one where the exponent is
negative. -/
def twoTo (e : Int) : Nat :=
  Nat.pow 2 e.toNat

/-- The power of ten with an exponent, and one where the exponent is
negative. -/
def tenTo (e : Int) : Nat :=
  Nat.pow 10 e.toNat

/-- The quotient of `num` by `den · 2 ^ e`, as two natural numbers. -/
def scaled (num den : Nat) (e : Int) : Nat × Nat :=
  (num * twoTo (-e), den * twoTo e)

/-- The exponent at which the quotient of two positive numbers has a 53-bit
whole part, or the least exponent when that is greater. -/
def fittingExponent (num den : Nat) : Int :=
  let guess : Int := (num.log2 : Int) - den.log2 - 52
  let (n, d) := scaled num den guess
  max (if n / d < twoTo 52 then guess - 1 else guess) minExponent

/-- The value nearest to a quotient of natural numbers. -/
def ofRatio (negative : Bool) (num den : Nat) : Binary :=
  if num = 0 then finite negative 0 minExponent
  else
    let e := fittingExponent num den
    let (n, d) := scaled num den e
    let m := roundDiv n d
    let (m, e) := if m = twoTo 53 then (twoTo 52, e + 1) else (m, e)
    if maxExponent < e then infinite negative else finite negative m e

/-- The value nearest to an integer times a power of two. -/
def ofScaled (n : Int) (e : Int) : Binary :=
  ofRatio (decide (n < 0)) (n.natAbs * twoTo e) (twoTo (-e))

/-- The value nearest to a natural number. -/
def ofNat (n : Nat) : Binary :=
  ofRatio false n 1

/-- The value nearest to a decimal. Decimals far beyond the range are settled by
their leading digit, without forming the power of ten. -/
def ofDecimal (d : Decimal) : Binary :=
  if d.coefficient = 0 ∨ d.adjusted < -400 then ofRatio d.negative 0 1
  else if 400 < d.adjusted then infinite d.negative
  else ofRatio d.negative (d.coefficient * tenTo d.exponent)
    (tenTo (-d.exponent))

/-- A finite value as a signed integer and the power of two it is multiplied
by. -/
def scaled? : Binary → Option (Int × Int)
  | finite negative m e => some (if negative then -(m : Int) else m, e)
  | _ => none

/-- Brings two scaled integers to a common power of two. -/
def aligned (a b : Int × Int) : Int × Int × Int :=
  let e := min a.2 b.2
  (a.1 * twoTo (a.2 - e), b.1 * twoTo (b.2 - e), e)

/-- The rounded sum. -/
def add : Binary → Binary → Binary
  | nan, _ => nan
  | _, nan => nan
  | infinite a, infinite b => if a = b then infinite a else nan
  | infinite a, _ => infinite a
  | _, infinite b => infinite b
  | finite s m e, finite t n f =>
    let (x, y, g) :=
      aligned (if s then -(m : Int) else m, e) (if t then -(n : Int) else n, f)
    if x + y = 0 then finite (s && t) 0 minExponent else ofScaled (x + y) g

/-- The rounded product. -/
def mul : Binary → Binary → Binary
  | nan, _ => nan
  | _, nan => nan
  | infinite s, infinite t => infinite (s != t)
  | infinite s, finite t n _ => if n = 0 then nan else infinite (s != t)
  | finite s m _, infinite t => if m = 0 then nan else infinite (s != t)
  | finite s m e, finite t n f =>
    if m * n = 0 then finite (s != t) 0 minExponent
    else ofScaled (if s != t then -((m * n : Nat) : Int)
      else (m * n : Nat)) (e + f)

/-- The value with its sign turned. -/
def neg : Binary → Binary
  | nan => nan
  | infinite s => infinite !s
  | finite s m e => finite (!s) m e

/-- Zero of either sign. -/
def isZero : Binary → Bool
  | finite _ m _ => m == 0
  | _ => false

end Binary

end LeafSurvey
