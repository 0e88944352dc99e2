import TableTail.Calendar.Date

/-!
# Timestamps

A date with a time of day to the nanosecond. A leap second is a nanosecond count of a thousand
million and more, and is printed as the second after its own: in the last second of a minute as
second 60. A timestamp can have such a count in any second, but only in the last one of a minute is
it made from clock readings (`Timestamp.ofParts?`).
-/

namespace TableTail

/-- A date and a time of day. -/
structure Timestamp where
  date : Date
  second : Nat
  nano : Nat
  second_lt : second < 86400
  nano_lt : nano < 2000000000
  deriving DecidableEq, Repr

namespace Timestamp

/-- The timestamp with the given date, second of the day and nanosecond, if these are readings of a
clock: a leap second is the last second of its minute. -/
def ofParts? (date : Date) (second nano : Nat) : Option Timestamp :=
  if h : (second < 86400 ∧ nano < 2000000000) ∧ (1000000000 ≤ nano → second % 60 = 59) then
    some ⟨date, second, nano, h.1.1, h.1.2⟩
  else none

/-- The timestamp with the given calendar and clock readings, if there is one. -/
def of? (year : Int) (month day hour minute second nano : Nat) : Option Timestamp :=
  if hour < 24 ∧ minute < 60 ∧ second < 60 then
    (Date.of? year month day).bind fun date =>
      ofParts? date (hour * 3600 + minute * 60 + second) nano
  else none

/-- The start of a day. -/
def startOfDay (date : Date) : Timestamp := ⟨date, 0, 0, by decide, by decide⟩

/-- The start of Unix time. -/
def epoch : Timestamp := startOfDay Date.epoch

instance : Inhabited Timestamp := ⟨epoch⟩

/-- Earlier moments come first. -/
def compareMoment (a b : Timestamp) : Ordering :=
  (compare a.date b.date).then ((compare a.second b.second).then (compare a.nano b.nano))

instance : Ord Timestamp := ⟨compareMoment⟩

/-- The seconds from the start of Unix time, a leap second counted as the second before it. -/
def unixSeconds (t : Timestamp) : Int := t.date.toDays * 86400 + t.second

/-- The moment a number of seconds from the start of Unix time, with the given nanosecond. -/
def ofUnix? (seconds : Int) (nano : Nat) : Option Timestamp :=
  (Date.ofDays? (seconds.fdiv 86400)).bind fun date =>
    ofParts? date (seconds.fmod 86400).toNat nano

/-- The timestamp a number of minutes earlier. -/
def minusMinutes? (t : Timestamp) (minutes : Int) : Option Timestamp :=
  ofUnix? (t.unixSeconds - minutes * 60) t.nano

/-- The fraction of a second in three, six or nine places, nothing when it is zero. -/
def fractionText (nano : Nat) : String :=
  let n := nano % 1000000000
  if n = 0 then ""
  else if n % 1000000 = 0 then "." ++ Text.padded 3 (n / 1000000)
  else if n % 1000 = 0 then "." ++ Text.padded 6 (n / 1000)
  else "." ++ Text.padded 9 n

/-- Hours, minutes and seconds joined by colons, and the fraction. -/
def clockText (t : Timestamp) : String :=
  Text.padded 2 (t.second / 3600) ++ ":" ++ Text.padded 2 (t.second / 60 % 60) ++ ":" ++
    Text.padded 2 (t.second % 60 + t.nano / 1000000000) ++ fractionText t.nano

/-- Date and time with a blank between them, the form in which timestamps are stored. -/
def text (t : Timestamp) : String := t.date.text ++ " " ++ t.clockText

/-- Date and time of a moment in universal time, with `T` between them and the offset behind. -/
def universalText (t : Timestamp) : String := t.date.text ++ "T" ++ t.clockText ++ "+00:00"

end Timestamp

end TableTail
