import LeafSurvey.Text.Base64
import LeafSurvey.Text.Digits
import LeafSurvey.Value
import LeafSurvey.Yaml.Tag

/-!
# Values of scalars

What a scalar means under a tag. Most texts get here because of their form, and
then they have a value; a tag that is written out may meet any text, so each
reading says why it fails. Underscores in numbers count for nothing, and digits
may be of any script.
-/

namespace LeafSurvey.Yaml

/-- Blanks around a number. -/
def isNumberBlank (c : Char) : Bool :=
  let n := c.toNat
  (0x09 ≤ n && n ≤ 0x0D) || (0x1C ≤ n && n ≤ 0x20) || n = 0x85
    || n = 0xA0 || n = 0x1680
    || (0x2000 ≤ n && n ≤ 0x200A) || n = 0x2028 || n = 0x2029
      || n = 0x202F || n = 0x205F
    || n = 0x3000

/-- A number text without blanks around it, in ASCII digits. -/
def trimmedNumber (cs : List Char) : List Char :=
  let front := cs.dropWhile isNumberBlank
  Text.toAsciiDigits (front.reverse.dropWhile isNumberBlank).reverse

/-- A number text without its underscores. -/
def withoutMarks (cs : List Char) : List Char :=
  cs.filter (· ≠ '_')

/-- Digits after a mark of their base, if it is there. -/
def afterBase (base : Nat) (cs : List Char) : List Char :=
  match base, cs with
  | 2, '0' :: c :: rest => if c = 'b' ∨ c = 'B' then rest else cs
  | 8, '0' :: c :: rest => if c = 'o' ∨ c = 'O' then rest else cs
  | 16, '0' :: c :: rest => if c = 'x' ∨ c = 'X' then rest else cs
  | _, _ => cs

/-- The integer that a text writes in a base. -/
def readInteger (base : Nat) (cs : List Char) : Except Fault Int :=
  let (sign, rest) := Sign.split (trimmedNumber cs)
  let digits := afterBase base rest
  if digits.isEmpty || !(digits.all fun c => digitValue c < base)
      || (base = 10 && Numeral.maxDigits < digits.length) then
    .error (.value .notANumber)
  else .ok (sign.apply (natOfDigits base digits))

/-- The integer with digits in base sixty between colons, the most significant
first. -/
def readSixties (cs : List Char) : Except Fault Int := do
  let digits ← (cs.splitOn ':').mapM (readInteger 10)
  return digits.foldl (fun n d => 60 * n + d) 0

/-- The integer of a scalar: binary after `0b`, hexadecimal after `0x`, octal
after another zero, base sixty between colons, else decimal. -/
def intValue (text : List Char) : Except Fault Value := do
  let cs := withoutMarks text
  let (sign, rest) := Sign.split cs
  let n ← match rest with
    | [] => .error (.value .emptyNumber)
    | ['0'] => .ok 0
    | '0' :: 'b' :: digits => readInteger 2 digits
    | '0' :: 'x' :: digits => readInteger 16 digits
    | '0' :: _ => readInteger 8 rest
    | _ => if rest.contains ':' then readSixties rest else readInteger 10 rest
  return .int (if sign = .minus then -n else n)

/-- The floating-point number that a text in lower case writes. -/
def readFloat (cs : List Char) : Except Fault Binary :=
  let (sign, rest) := Sign.split (trimmedNumber cs)
  let signed (x : Binary) : Binary := if sign = .minus then x.neg else x
  if rest = "inf".toList ∨ rest = "infinity".toList then
    .ok (signed (.infinite false))
  else if rest = "nan".toList then .ok .nan
  else
    match Numeral.ofChars? (trimmedNumber cs) with
    | some n => .ok (Binary.ofDecimal (Decimal.ofNumeral n))
    | none => .error (.value .notANumber)

/-- The sum of digits times powers of sixty, the least significant digit first,
rounded at each step. A power that rounds to no finite number has no product,
not even with zero. -/
def sexagesimalSum (total : Binary) (weight : Nat) :
    List Binary → Except Fault Binary
  | [] => .ok total
  | d :: rest =>
    match Binary.ofNat weight with
    | .infinite _ => .error (.value .placeTooGreat)
    | w => sexagesimalSum (total.add (d.mul w)) (60 * weight) rest

/-- The floating-point number with digits in base sixty between colons. -/
def readFloatSixties (cs : List Char) : Except Fault Binary := do
  let digits ← (cs.splitOn ':').mapM readFloat
  sexagesimalSum (.ofNat 0) 1 digits.reverse

/-- The number text of a floating-point scalar: lower case, without
underscores. -/
def floatText (text : List Char) : List Char :=
  (withoutMarks text).map Char.toLower

/-- Whether a text writes the value that is not a number by its form. Other
spellings of it, which need a tag, make a value of their own each. -/
def isNanForm (text : List Char) : Bool :=
  (Sign.split (floatText text)).2 = ".nan".toList

/-- The floating-point number of a scalar. -/
def floatValue (text : List Char) : Except Fault Value := do
  let cs := floatText text
  if cs.isEmpty then throw (.value .emptyNumber)
  let (sign, rest) := Sign.split cs
  let x ← if rest = ".inf".toList then .ok (Binary.infinite false)
    else if rest = ".nan".toList then .ok .nan
    else if rest.contains ':' then readFloatSixties rest
    else readFloat rest
  return .float (if sign = .minus then x.neg else x)

/-- The truth value of a scalar. -/
def boolValue (text : List Char) : Except Fault Value :=
  let word := String.ofList (text.map Char.toLower)
  if ["yes", "true", "on"].contains word then .ok (.bool true)
  else if ["no", "false", "off"].contains word then .ok (.bool false)
  else .error (.value .notABool)

/-- The date or the time of a scalar. A tag admits months and days of one
digit. -/
def dateValue (text : List Char) : Except Fault Value :=
  match Timestamp.ofChars? (Tag.formOf text) with
  | none => .error (.value .notADate)
  | some t =>
    match t.date?, t.clock with
    | none, _ => .error (.value .noSuchTime)
    | some d, none => .ok (.date d)
    | some d, some c =>
      match Timestamp.time? d c with
      | some time => .ok (.time time)
      | none => .error (.value .noSuchTime)

/-- The octets of a scalar. -/
def bytesValue (text : Literal) : Except Fault Value :=
  match (Text.octets? text.toChars).filter fun _ =>
      text.toChars.all (·.toNat < 0x80) with
  | some octets => .ok (.bytes octets)
  | none => .error (.malformed .octets)

/-- The value of a text under a tag for scalars; `none` under any other tag. -/
def scalarValue? (tag : Tag) (text : Literal) : Option (Except Fault Value) :=
  match tag with
  | .null => some (.ok .null)
  | .bool => some (boolValue text.toChars)
  | .int => some (intValue text.toChars)
  | .float => some (floatValue text.toChars)
  | .date => some (dateValue text.toChars)
  | .text => some (.ok text.value)
  | .bytes => some (bytesValue text)
  | _ => none

end LeafSurvey.Yaml
