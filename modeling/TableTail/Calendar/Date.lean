import TableTail.Text.Digits

/-!
# Calendar dates

Dates of the proleptic Gregorian calendar, with year zero and negative years, and their number of
days from 1970-01-01.
-/

namespace TableTail

/-- Whether February has 29 days. -/
def isLeapYear (y : Int) : Bool := y % 4 == 0 && (y % 100 != 0 || y % 400 == 0)

/-- The number of days in a month, none for a month that does not exist. -/
def daysInMonth (y : Int) (m : Nat) : Nat :=
  if m = 2 then (if isLeapYear y then 29 else 28)
  else if m = 4 ∨ m = 6 ∨ m = 9 ∨ m = 11 then 30
  else if 1 ≤ m ∧ m ≤ 12 then 31
  else 0

/-- A day that the calendar has, in the years that are represented. -/
structure Date where
  year : Int
  month : Nat
  day : Nat
  year_ge : -262143 ≤ year
  year_le : year ≤ 262142
  day_pos : 1 ≤ day
  day_le : day ≤ daysInMonth year month
  deriving DecidableEq, Repr

namespace Date

/-- The date with the given parts, if there is one. -/
def of? (year : Int) (month day : Nat) : Option Date :=
  if h : (-262143 ≤ year ∧ year ≤ 262142) ∧ (1 ≤ day ∧ day ≤ daysInMonth year month) then
    some ⟨year, month, day, h.1.1, h.1.2, h.2.1, h.2.2⟩
  else none

/-- The day on which Unix time starts. -/
def epoch : Date := ⟨1970, 1, 1, by decide, by decide, by decide, by decide⟩

instance : Inhabited Date := ⟨epoch⟩

/-- Earlier days come first. -/
def compareDay (a b : Date) : Ordering :=
  (compare a.year b.year).then ((compare a.month b.month).then (compare a.day b.day))

instance : Ord Date := ⟨compareDay⟩

/-- The days from 1970-01-01 to a day given by its parts. Years are counted from March on, so that
the day that leap years add is the last one, and in eras of 400 years. -/
def dayNumber (year : Int) (month day : Nat) : Int :=
  let y := if month ≤ 2 then year - 1 else year
  let era := y.fdiv 400
  let yearOfEra := y - era * 400
  let m : Int := if month ≤ 2 then month + 9 else (month : Int) - 3
  let dayOfYear := (153 * m + 2).fdiv 5 + day - 1
  let dayOfEra := yearOfEra * 365 + yearOfEra.fdiv 4 - yearOfEra.fdiv 100 + dayOfYear
  era * 146097 + dayOfEra - 719468

/-- The days from 1970-01-01 to a date. -/
def toDays (d : Date) : Int := dayNumber d.year d.month d.day

/-- Year, month and day of a number of days from 1970-01-01. -/
def partsOfDays (n : Int) : Int × Nat × Nat :=
  let z := n + 719468
  let era := z.fdiv 146097
  let dayOfEra := z - era * 146097
  let yearOfEra :=
    (dayOfEra - dayOfEra.fdiv 1460 + dayOfEra.fdiv 36524 - dayOfEra.fdiv 146096).fdiv 365
  let dayOfYear := dayOfEra - (365 * yearOfEra + yearOfEra.fdiv 4 - yearOfEra.fdiv 100)
  let m := (5 * dayOfYear + 2).fdiv 153
  let day := dayOfYear - (153 * m + 2).fdiv 5 + 1
  let month := if m < 10 then m + 3 else m - 9
  let year := yearOfEra + era * 400
  ((if month ≤ 2 then year + 1 else year), month.toNat, day.toNat)

/-- The date a number of days from 1970-01-01, if it is represented. -/
def ofDays? (n : Int) : Option Date :=
  let (y, m, d) := partsOfDays n
  of? y m d

/-- A year in at least four digits; outside 0 to 9999 it has a sign. -/
def yearText (y : Int) : String :=
  if 0 ≤ y ∧ y ≤ 9999 then Text.padded 4 y.toNat
  else (if y < 0 then "-" else "+") ++ Text.padded 4 y.natAbs

/-- Year, month and day joined by hyphens. -/
def text (d : Date) : String :=
  yearText d.year ++ "-" ++ Text.padded 2 d.month ++ "-" ++ Text.padded 2 d.day

end Date

end TableTail
