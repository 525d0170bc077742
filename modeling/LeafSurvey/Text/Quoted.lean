import LeafSurvey.Text.Surrogates
import LeafSurvey.Text.Unprinted

/-!
# Quoted text in messages

Messages quote file names and arguments, and lists inside a setting quote their
texts. The quote is an apostrophe, unless the text holds an apostrophe and no
double quote. The backslash and the quote are escaped, and a character without a
printed form is written by name or by number.
-/

namespace LeafSurvey.Text

/-- Lower-case hexadecimal digits of a number, filled up with zeros to a
width. -/
def hexDigits (width n : Nat) : List Char :=
  let digits := Nat.toDigits 16 n
  List.replicate (width - digits.length) '0' ++ digits

/-- A character without a printed form, written by number with as many digits as
it needs. -/
def escapedByNumber (c : Char) : List Char :=
  let n := c.toNat
  if n < 0x100 then '\\' :: 'x' :: hexDigits 2 n
  else if n < 0x10000 then '\\' :: 'u' :: hexDigits 4 n
  else '\\' :: 'U' :: hexDigits 8 n

/-- One character between quotes. -/
def quotedChar (quote c : Char) : List Char :=
  if c = quote ∨ c = '\\' then ['\\', c]
  else if c = '\n' then ['\\', 'n']
  else if c = '\r' then ['\\', 'r']
  else if c = '\t' then ['\\', 't']
  else if isUnprinted c then escapedByNumber c
  else [c]

/-- One code point between quotes. Half of a surrogate pair is written by
number. -/
def quotedPoint (quote : Char) (n : Nat) : List Char :=
  if isHalf n then '\\' :: 'u' :: hexDigits 4 n
  else quotedChar quote (Char.ofNat n)

/-- The quote that code points are set between. -/
def quoteFor (points : List Nat) : Char :=
  if points.contains '\''.toNat && !points.contains '"'.toNat then '"' else '\''

/-- Code points between quotes. -/
def quotedPoints (points : List Nat) : String :=
  let quote := quoteFor points
  String.ofList (quote :: (points.flatMap (quotedPoint quote) ++ [quote]))

/-- A text between quotes. -/
def quoted (s : String) : String :=
  quotedPoints (s.toList.map Char.toNat)

/-- One octet between quotes. Only ASCII has characters. -/
def quotedOctet (quote : Char) (b : UInt8) : List Char :=
  if b < 0x80 then quotedChar quote (Char.ofNat b.toNat)
  else '\\' :: 'x' :: hexDigits 2 b.toNat

/-- Octets between quotes, behind a mark. -/
def quotedOctets (octets : List UInt8) : String :=
  let quote := quoteFor (octets.map UInt8.toNat)
  String.ofList ('b' :: quote
    :: (octets.flatMap (quotedOctet quote) ++ [quote]))

end LeafSurvey.Text
