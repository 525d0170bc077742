import LeafSurvey.Date

/-!
# Times of day on a date

A time names a date, an hour, a minute, a second and a part of it, and maybe how
far the clock that shows it is ahead of universal time. Times with such an
offset are placed on one common line by `DateTime.instant`; a time without one
stands for itself only.
-/

namespace LeafSurvey

namespace Date

/-- The days from the start of a year to the start of a month. -/
def daysBefore (year : Nat) : Nat → Nat
  | 0 => 0
  | 1 => 0
  | month + 2 => daysBefore year (month + 1) + daysIn year (month + 1)

/-- The number of a day, counted from the first day of the first year. -/
def ordinal (d : Date) : Nat :=
  let past := d.year - 1
  365 * past + past / 4 - past / 100 + past / 400
    + daysBefore d.year d.month + d.day

end Date

/-- A time of day on a date. -/
structure DateTime where
  date : Date
  hour : Nat
  minute : Nat
  second : Nat
  /-- Millionths of a second. -/
  micro : Nat
  /-- The minutes by which the clock is ahead of universal time, where this is
  known. -/
  offset : Option Int
deriving DecidableEq, Repr

namespace DateTime

/-- The minutes of a day. -/
def dayMinutes : Nat := 1440

/-- The time of a clock on a date, if clocks show it. An offset is less than a
day. -/
def of? (date : Date) (hour minute second micro : Nat) (offset : Option Int) :
    Option DateTime :=
  if hour < 24 ∧ minute < 60 ∧ second < 60 ∧ micro < 1000000
      ∧ (offset.getD 0).natAbs < dayMinutes then
    some ⟨date, hour, minute, second, micro, offset⟩
  else none

/-- Seconds of universal time and millionths, for a clock whose offset is known
or taken as none. -/
def instant (t : DateTime) : Int × Nat :=
  let minutes : Int := dayMinutes * t.date.ordinal + 60 * t.hour + t.minute
  (60 * (minutes - t.offset.getD 0) + t.second, t.micro)

/-- Whether the offset of a time is known. -/
def isPlaced (t : DateTime) : Bool :=
  t.offset.isSome

/-- Whether two times are the same. A time with an offset is never the same as
one without. -/
def same (t u : DateTime) : Bool :=
  t.isPlaced == u.isPlaced && t.instant == u.instant

/-- Whether one time comes strictly before another. -/
def before (t u : DateTime) : Bool :=
  let (a, i) := t.instant
  let (b, j) := u.instant
  a < b || (a == b && i < j)

/-- An offset with its sign, in hours and minutes. -/
def offsetText (minutes : Int) : String :=
  (if minutes < 0 then "-" else "+")
    ++ Date.padded 2 (minutes.natAbs / 60) ++ ":"
    ++ Date.padded 2 (minutes.natAbs % 60)

/-- A time as text: the date, a mark, and the clock. -/
def text (mark : String) (t : DateTime) : String :=
  t.date.text ++ mark ++ Date.padded 2 t.hour ++ ":"
    ++ Date.padded 2 t.minute ++ ":"
    ++ Date.padded 2 t.second
    ++ (if t.micro = 0 then "" else "." ++ Date.padded 6 t.micro)
    ++ (t.offset.map offsetText).getD ""

end DateTime

end LeafSurvey
