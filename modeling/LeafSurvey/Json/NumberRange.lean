import LeafSurvey.Json.Reader
import LeafSurvey.Number.Decimal

/-!
# Numbers that are taken in

The grammar of JSON bounds no number, but an integer of very many digits is
not read, and a decimal has to keep its digits and its powers of ten within
the bounds of exact decimal arithmetic. Numbers are taken in one by one as they
are met. So the first number of a text that is out of bounds ends the
reading, whatever is wrong behind it; and what is wrong in front of it comes
first. `refusedNumber?` finds that number.
-/

namespace LeafSurvey

namespace Decimal

/-- The greatest power of ten of a leading digit, and the greatest number of
digits. -/
def limit : Nat := 999999999999999999

/-- Whether exact decimal arithmetic holds a decimal. -/
def isHeld (d : Decimal) : Bool :=
  d.digits.length ≤ limit && 1 - 2 * (limit : Int) ≤ d.exponent
    && d.adjusted ≤ limit

end Decimal

namespace Json

/-- Why a number is not taken in. -/
inductive NumberFault where
  /-- An integer has more digits than are read. -/
  | tooManyDigits
  /-- A decimal is out of the bounds of exact arithmetic. -/
  | outOfRange
deriving DecidableEq, Repr

namespace NumberFault

/-- The fault in words. -/
def message : NumberFault → String
  | tooManyDigits => "an integer has too many digits"
  | outOfRange => "a decimal number is out of range"

end NumberFault

/-- The fault of a numeral, if it is not taken in. -/
def numberFault? (n : Numeral) : Option NumberFault :=
  if n.isInteger then
    if n.whole.length ≤ Numeral.maxDigits then none else some .tooManyDigits
  else if n.fractionDigits.length ≤ Decimal.limit
    && (Decimal.ofNumeral n).isHeld then none
  else some .outOfRange

/-! ## The number in front of a run -/

/-- Splits the whole digits off the front: a zero by itself, or all digits. -/
def splitWhole : List Char → List Char × List Char
  | '0' :: rest => (['0'], rest)
  | cs => (cs.takeWhile Char.isDigit, cs.dropWhile Char.isDigit)

/-- The exponent in front, `none` inside where no letter stands for one. The
letter must have digits behind it. -/
def frontExponent? : List Char → Option (Option Exponent)
  | [] => some none
  | c :: rest =>
    if c = 'e' || c = 'E' then
      let (sign, tail) := Sign.split rest
      let digits := tail.takeWhile Char.isDigit
      if digits.isEmpty then none else some (some ⟨c, sign, digits⟩)
    else some none

/-- The number that a bare run starts with, as far as it goes. There is none
where the run breaks off behind a sign, a point or the letter of an exponent. -/
def frontNumber? (run : List Char) : Option Numeral :=
  let (sign, rest) := Sign.split run
  let (whole, rest) := splitWhole rest
  let (fraction, rest) := Numeral.splitFraction rest
  if sign = .plus || whole.isEmpty || fraction = some [] then none
  else (frontExponent? rest).map fun exponent =>
    ⟨sign, whole, fraction, exponent⟩

/-! ## The first number that is not taken in -/

namespace Position

/-- The fault of the number that a lexeme starts with where a value comes
next. -/
def refusal? : Position → Lexeme → Option NumberFault
  | value _, .bare run => (frontNumber? run).bind numberFault?
  | firstItem _, .bare run => (frontNumber? run).bind numberFault?
  | _, _ => none

/-- The fault of the first number that is not taken in, before the first
lexeme that is out of place. -/
def firstRefusal? (p : Position) : List Lexeme → Option NumberFault
  | [] => none
  | lexeme :: rest =>
    match p.refusal? lexeme with
    | some fault => some fault
    | none => (p.take lexeme).bind fun next => firstRefusal? next rest

end Position

/-- The lexemes of the text read, without a string that is still open. -/
def Splitter.lexemes (s : Splitter) : List Lexeme :=
  match s.state with
  | .bare run => (.bare run.reverse :: s.found).reverse
  | _ => s.found.reverse

/-- The fault of the first number of a text that is not taken in. -/
def refusedIn? (cs : List Char) : Option NumberFault :=
  Position.firstRefusal? (.value []) (cs.foldl Splitter.take .start).lexemes

/-- The characters of bytes up to the first byte that belongs to none: the
longest front that is a text. -/
def decodedFront (bytes : ByteArray) : List Char :=
  let front? :=
    fun n => (String.fromUTF8? (bytes.extract 0 n)).map String.toList
  ((List.range (bytes.size + 1)).reverse.findSome? front?).getD []

/-- The fault of the first number of a file that is not taken in. -/
def refusedNumber? (bytes : ByteArray) : Option NumberFault :=
  refusedIn? (decodedFront (skipMark bytes))

end Json

end LeafSurvey
