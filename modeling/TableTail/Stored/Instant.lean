import TableTail.Calendar.Date
import TableTail.Stored.Value

/-!
# Instants of stored values

SQLite reads a value as an instant and writes it as `YYYY-MM-DD HH:MM:SS.SSS`. A text is a date, a
date and a time, or a time, with an offset from universal time behind it; a number counts Julian
days, or seconds of Unix time when it is declared to. Seconds are rounded to three places, and what
would round up to a whole minute stays in its last millisecond.
-/

namespace TableTail.Instant

/-- The time of day and offset of a text, with seconds as a number of digits after the point. -/
structure Clock where
  hour : Nat
  minute : Nat
  second : Nat
  fraction : List Nat
  offset : Option Int
  deriving Repr

/-- A number of exactly `width` digits between two bounds, and what follows it. -/
def field (width low high : Nat) (s : List Char) : Option (Nat × List Char) :=
  match Text.digits? (s.take width) with
  | some ds =>
    if ds.length = width ∧ low ≤ Text.ofDigits ds ∧ Text.ofDigits ds ≤ high then
      some (Text.ofDigits ds, s.drop width)
    else none
  | none => none

/-- What follows a given character. -/
def after (c : Char) : List Char → Option (List Char)
  | [] => none
  | d :: rest => if d = c then some rest else none

/-- The offset in minutes at the end of a text, if there is one. -/
def readOffset (s : List Char) : Option (Option Int) :=
  match s.dropWhile Affinity.isSpace with
  | [] => some none
  | c :: rest =>
    if c = 'Z' ∨ c = 'z' then
      if (rest.dropWhile Affinity.isSpace).isEmpty then some (some 0) else none
    else if c = '+' ∨ c = '-' then do
      let (hours, rest) ← field 2 0 14 rest
      let rest ← after ':' rest
      let (minutes, rest) ← field 2 0 59 rest
      let total : Int := hours * 60 + minutes
      if (rest.dropWhile Affinity.isSpace).isEmpty then
        some (some (if c = '-' then -total else total))
      else none
    else none

/-- The seconds after hours and minutes, none counting as zero. -/
def readSeconds (s : List Char) : Option (Nat × List Nat × List Char) :=
  match after ':' s with
  | none => some (0, [], s)
  | some rest => do
    let (second, rest) ← field 2 0 59 rest
    match after '.' rest with
    | none => some (second, [], rest)
    | some places =>
      match Text.spanDigits places with
      | ([], _) => some (second, [], rest)
      | (ds, rest) => some (second, ds, rest)

/-- A time of day with an optional offset; one of zero is none. -/
def readClock (s : List Char) : Option Clock := do
  let (hour, s) ← field 2 0 24 s
  let s ← after ':' s
  let (minute, s) ← field 2 0 59 s
  let (second, fraction, s) ← readSeconds s
  let offset ← readOffset s
  return ⟨hour, minute, second, fraction, offset.filter (· ≠ 0)⟩

/-- A date, whose day may be past the end of its month, and what follows it. -/
def readDate (s : List Char) : Option (Int × Nat × Nat × List Char) := do
  let (negative, s) := match s with
    | '-' :: rest => (true, rest)
    | s => (false, s)
  let (year, s) ← field 4 0 9999 s
  let s ← after '-' s
  let (month, s) ← field 2 1 12 s
  let s ← after '-' s
  let (day, s) ← field 2 1 31 s
  return (if negative then -(year : Int) else year, month, day, s)

/-- The milliseconds of seconds with a fraction, a half going up. -/
def milliseconds (second : Nat) (fraction : List Nat) : Nat :=
  let scale := 10 ^ fraction.length
  (2 * 1000 * (second * scale + Text.ofDigits fraction) + scale) / (2 * scale)

/-- The milliseconds from the first instant that is represented to the start of Unix time. -/
def epochOffset : Int := 210866760000000

/-- Whether an instant, in milliseconds of Unix time, is represented. -/
def isRepresented (t : Int) : Bool := 0 ≤ t + epochOffset && t + epochOffset < 464269060800000

/-- A year in at least four characters. -/
def yearText (year : Int) : String :=
  if year < 0 then "-" ++ Text.padded 3 year.natAbs else Text.padded 4 year.natAbs

/-- The written form of an instant. -/
def layout (year : Int) (month day hour minute ms : Nat) : String :=
  yearText year ++ "-" ++ Text.padded 2 month ++ "-" ++ Text.padded 2 day ++ " " ++
    Text.padded 2 hour ++ ":" ++ Text.padded 2 minute ++ ":" ++ Text.padded 2 (ms / 1000) ++ "." ++
    Text.padded 3 (ms % 1000)

/-- The written form of an instant in milliseconds of Unix time. -/
def ofMilliseconds (t : Int) : Option String :=
  if isRepresented t then
    let (year, month, day) := Date.partsOfDays (t.fdiv 86400000)
    let ms := (t.fmod 86400000).toNat
    some (layout year month day (ms / 3600000) (ms / 60000 % 60) (ms % 60000))
  else none

/-- The written form of a date and a time as they were read. An offset is applied in whole
milliseconds. A day past the 28th is put into its month, but the time of day is kept as it is. -/
def ofParts (year : Int) (month day : Nat) (c : Clock) : Option String :=
  let ms := milliseconds c.second c.fraction
  let days := Date.dayNumber year month day
  let t := days * 86400000 + ((c.hour * 3600000 + c.minute * 60000 + ms : Nat) : Int)
  if -4713 ≤ year then
    match c.offset with
    | some minutes => ofMilliseconds (t - minutes * 60000)
    | none =>
      if isRepresented t then
        let (year, month, day) :=
          if 28 < day then Date.partsOfDays (t.fdiv 86400000) else (year, month, day)
        some (layout year month day c.hour c.minute (min ms 59999))
      else none
  else none

/-- The start of a day. -/
def midnight : Clock := ⟨0, 0, 0, [], none⟩

/-- The written form of the instant a number of Julian days. -/
def ofJulianDay (x : Binary64) : Option String :=
  if x.isFinite ∧ (!x.negative ∨ x.magnitude = 0) ∧
      2 * x.magnitude < 10746969 * 2 ^ 1074 then
    let ms := (x.times (Binary64.ofInt 86400000)).plus (Binary64.ofRatio false 1 2)
    ofMilliseconds ((ms.magnitude / 2 ^ 1074 : Nat) - epochOffset)
  else none

/-- The written form of the instant in a text. -/
def ofText (s : String) : Option String :=
  let chars := s.toList
  match readDate chars with
  | some (year, month, day, rest) =>
    match rest.dropWhile fun c => Affinity.isSpace c || c = 'T' with
    | [] => ofParts year month day midnight
    | rest => (readClock rest).bind (ofParts year month day)
  | none =>
    match readClock chars with
    | some c => ofParts 2000 1 1 c
    | none =>
      match Affinity.numberOf s with
      | .integer i => ofJulianDay (Binary64.ofInt i.toInt)
      | .real x => ofJulianDay x
      | _ => none

/-- The instant of a value, as it is written; NULL when it has none. -/
def ofStored : Stored → Stored
  | .text s => Stored.ofText? (ofText s)
  | .integer i => Stored.ofText? (ofJulianDay (Binary64.ofInt i.toInt))
  | .real x => Stored.ofText? (ofJulianDay x)
  | _ => .null

/-- The instant a number of seconds of Unix time. -/
def ofUnixSeconds : Stored → Stored
  | .integer i => Stored.ofText? (ofMilliseconds (i.toInt * 1000))
  | _ => .null

end TableTail.Instant
