import LeafSurvey.DateTime
import LeafSurvey.Number.Numeral

/-!
# Dates and times in YAML text

A date is a year of four digits, a month and a day, with hyphens between. A time
follows after a `T` or blanks: hours, minutes and seconds with colons between,
maybe a fraction, and maybe a zone, which is `Z` or an offset.
`Timestamp.ofChars?` takes a text apart without asking whether the calendar has
the day and clocks show the time; `Timestamp.date?` and `Timestamp.time?` ask.
-/

namespace LeafSurvey.Yaml

/-- The zone after a time. -/
inductive Zone where
  | universal
  | offset (isBehind : Bool) (hours minutes : List Char)
deriving DecidableEq, Repr

/-- The digits of a time of day, and its zone. -/
structure Clock where
  hour : List Char
  minute : List Char
  second : List Char
  fraction : List Char
  zone : Option Zone
deriving DecidableEq, Repr

/-- The digits of a date, and the time of day after it. -/
structure Timestamp where
  year : List Char
  month : List Char
  day : List Char
  clock : Option Clock
deriving DecidableEq, Repr

namespace Timestamp

/-- Takes the digits in front, at most `most` of them; there must be `least`. -/
def digits? (least most : Nat) (cs : List Char) :
    Option (List Char × List Char) :=
  let taken := (cs.take most).takeWhile Char.isDigit
  if least ≤ taken.length then some (taken, cs.drop taken.length) else none

/-- Takes a given character. -/
def after? (c : Char) : List Char → Option (List Char)
  | [] => none
  | x :: rest => if x = c then some rest else none

/-- A space or a tab. -/
def isGap (c : Char) : Bool :=
  c = ' ' || c = '\t'

/-- The offset of a zone after its sign. -/
def offset? (isBehind : Bool) (cs : List Char) : Option Zone := do
  let (hours, rest) ← digits? 1 2 cs
  match rest with
  | [] => return .offset isBehind hours []
  | ':' :: rest =>
    match digits? 2 2 rest with
    | some (minutes, []) => return .offset isBehind hours minutes
    | _ => none
  | _ => none

/-- The zone that fills the rest of a text, maybe after blanks. -/
def zone? (cs : List Char) : Option Zone :=
  match cs.dropWhile isGap with
  | ['Z'] => some .universal
  | '+' :: rest => offset? false rest
  | '-' :: rest => offset? true rest
  | _ => none

/-- Takes a fraction: the digits after a point, if there is one. -/
def splitFraction : List Char → List Char × List Char
  | '.' :: rest => (rest.takeWhile Char.isDigit, rest.dropWhile Char.isDigit)
  | rest => ([], rest)

/-- The time of day that fills a text. -/
def clock? (cs : List Char) : Option Clock := do
  let (hour, rest) ← digits? 1 2 cs
  let (minute, rest) ← digits? 2 2 (← after? ':' rest)
  let (second, rest) ← digits? 2 2 (← after? ':' rest)
  let (fraction, rest) := splitFraction rest
  if rest.isEmpty then return ⟨hour, minute, second, fraction, none⟩
  return ⟨hour, minute, second, fraction, some (← zone? rest)⟩

/-- The text after the mark between a date and a time. -/
def afterMark? : List Char → Option (List Char)
  | [] => none
  | c :: rest =>
    if c = 'T' ∨ c = 't' then some rest
    else if isGap c then some (rest.dropWhile isGap)
    else none

/-- The date, or the date and time, that fill a text. -/
def ofChars? (cs : List Char) : Option Timestamp := do
  let (year, rest) ← digits? 4 4 cs
  let (month, rest) ← digits? 1 2 (← after? '-' rest)
  let (day, rest) ← digits? 1 2 (← after? '-' rest)
  if rest.isEmpty then return ⟨year, month, day, none⟩
  return ⟨year, month, day, some (← clock? (← afterMark? rest))⟩

/-- Whether a plain scalar of this form is a date or a time. A date alone needs
two digits for the month and two for the day. -/
def isPlainForm (t : Timestamp) : Bool :=
  t.clock.isSome || (t.month.length = 2 && t.day.length = 2)

/-- The number of decimal digits. -/
def number (digits : List Char) : Nat :=
  natOfDigits 10 digits

/-- The millionths that a fraction writes; digits beyond the sixth do not
count. -/
def micro (fraction : List Char) : Nat :=
  let kept := fraction.take 6
  number (kept ++ List.replicate (6 - kept.length) '0')

/-- The minutes by which the clocks of a zone are ahead of universal time. -/
def zoneOffset : Zone → Int
  | .universal => 0
  | .offset isBehind hours minutes =>
    let ahead : Int := 60 * number hours + number minutes
    if isBehind then -ahead else ahead

/-- The day of a timestamp, if the calendar has it. -/
def date? (t : Timestamp) : Option Date :=
  Date.of? (number t.year) (number t.month) (number t.day)

/-- The time of a clock on a day, if clocks show it. -/
def time? (date : Date) (c : Clock) : Option DateTime :=
  DateTime.of? date (number c.hour) (number c.minute) (number c.second)
    (micro c.fraction)
    (c.zone.map zoneOffset)

end Timestamp

end LeafSurvey.Yaml
