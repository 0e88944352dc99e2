import TableTail.Calendar.Timestamp
import TableTail.Number.Power
import TableTail.Text.Blank

/-!
# Timestamps in text

Reading a whole text as a timestamp. Four layouts are tried in turn: date and time with blanks
between them, with `T` between them, the internet layout with an offset from universal time, and a
date alone. A fraction may have any number of digits, of which nine count; second 60 is the leap
second of its minute.
-/

namespace TableTail.Calendar

/-- The value of at most `width` leading digits, of which there is at least one. -/
def readNumber (width : Nat) (s : List Char) : Option (Nat × List Char) :=
  let ds := (s.take width).takeWhile Text.isDigit
  match Text.digits? ds with
  | some (d :: rest) => some (Text.ofDigits (d :: rest), s.drop ds.length)
  | _ => none

/-- A field of a layout: blanks and a number of at most `width` digits. -/
def readField (width : Nat) (s : List Char) : Option (Nat × List Char) :=
  readNumber width (Text.trimStart s)

/-- A field of exactly two or four digits, without blanks. -/
def readExact (width : Nat) (s : List Char) : Option (Nat × List Char) :=
  (readNumber width s).bind fun (n, rest) =>
    if rest.length + width = s.length then some (n, rest) else none

/-- A year: four digits at most, or any number of them behind a sign. -/
def readYear (s : List Char) : Option (Int × List Char) :=
  match Text.trimStart s with
  | '-' :: rest => (readNumber rest.length rest).map fun (n, rest) => (-(n : Int), rest)
  | '+' :: rest => (readNumber rest.length rest).map fun (n, rest) => ((n : Int), rest)
  | rest => (readNumber 4 rest).map fun (n, rest) => ((n : Int), rest)

/-- A given character. -/
def expect (c : Char) : List Char → Option (List Char)
  | [] => none
  | d :: rest => if c = d then some rest else none

/-- The nanoseconds behind a point, zero without one. -/
def readFraction (s : List Char) : Option (Nat × List Char) :=
  match s with
  | '.' :: rest =>
    (readNumber 9 rest).map fun (n, tail) =>
      (n * 10 ^ (9 - (rest.length - tail.length)), tail.dropWhile Text.isDigit)
  | rest => some (0, rest)

/-- The timestamp with readings that may have second 60. -/
def moment? (year : Int) (month day hour minute second nano : Nat) : Option Timestamp :=
  if second = 60 then Timestamp.of? year month day hour minute 59 (1000000000 + nano)
  else Timestamp.of? year month day hour minute second nano

/-- Year, month and day joined by hyphens. -/
def readDate (s : List Char) : Option ((Int × Nat × Nat) × List Char) := do
  let (year, s) ← readYear s
  let s ← expect '-' s
  let (month, s) ← readField 2 s
  let s ← expect '-' s
  let (day, s) ← readField 2 s
  some ((year, month, day), s)

/-- Hours, minutes and seconds joined by colons, and a fraction, up to the end. -/
def readClock (s : List Char) : Option (Nat × Nat × Nat × Nat) := do
  let (hour, s) ← readField 2 s
  let s ← expect ':' s
  let (minute, s) ← readField 2 s
  let s ← expect ':' s
  let (second, s) ← readField 2 s
  let (nano, s) ← readFraction s
  if s.isEmpty then some (hour, minute, second, nano) else none

/-- Date and time with blanks between them. -/
def readSpaced (s : List Char) : Option Timestamp := do
  let ((y, m, d), s) ← readDate s
  let (h, mi, sec, nano) ← readClock (Text.trimStart s)
  moment? y m d h mi sec nano

/-- Date and time with `T` between them. -/
def readJoined (s : List Char) : Option Timestamp := do
  let ((y, m, d), s) ← readDate s
  let s ← expect 'T' s
  let (h, mi, sec, nano) ← readClock s
  moment? y m d h mi sec nano

/-- The offset from universal time in minutes, at the end of the text. -/
def readOffset (s : List Char) : Option Int :=
  match s with
  | ['Z'] => some 0
  | ['z'] => some 0
  | sign :: rest =>
    if sign = '+' ∨ sign = '-' ∨ sign = '\u2212' then do
      let (hours, rest) ← readExact 2 rest
      let rest ← expect ':' rest
      let (minutes, rest) ← readExact 2 rest
      if rest.isEmpty ∧ hours < 24 ∧ minutes < 60 then
        let offset : Int := hours * 60 + minutes
        some (if sign = '+' then offset else -offset)
      else none
    else none
  | [] => none

/-- The internet layout: fixed widths, `T` or a blank, and an offset, which is taken off. -/
def readInternet (s : List Char) : Option Timestamp := do
  let (year, s) ← readExact 4 s
  let s ← expect '-' s
  let (month, s) ← readExact 2 s
  let s ← expect '-' s
  let (day, s) ← readExact 2 s
  match s with
  | c :: s =>
    if c = 'T' ∨ c = 't' ∨ c = ' ' then
      let (hour, s) ← readExact 2 s
      let s ← expect ':' s
      let (minute, s) ← readExact 2 s
      let s ← expect ':' s
      let (second, s) ← readExact 2 s
      let (nano, s) ← readFraction s
      let offset ← readOffset s
      let stated ← moment? year month day hour minute second nano
      stated.minusMinutes? offset
    else none
  | [] => none

/-- A date alone, which stands for its start. -/
def readDay (s : List Char) : Option Timestamp := do
  let ((y, m, d), s) ← readDate s
  if s.isEmpty then (Date.of? y m d).map Timestamp.startOfDay else none

/-- The timestamp that a text denotes. -/
def read? (s : List Char) : Option Timestamp :=
  readSpaced s <|> readJoined s <|> readInternet s <|> readDay s

end TableTail.Calendar
