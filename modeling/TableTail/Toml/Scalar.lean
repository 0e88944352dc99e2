import TableTail.Json.Value
import TableTail.Number.Reading
import TableTail.Text.Digits

/-!
# TOML scalars

Numbers, booleans and dates. A scalar ends where a character comes that none of them can hold.
-/

namespace TableTail.Toml

/-- Digits of a base with single underscores between them. -/
def digitRun (value : Char → Option Nat) : List Char → Option (List Nat)
  | [] => none
  | [c] => (value c).map ([·])
  | c :: '_' :: rest => do
    let d ← value c
    let ds ← digitRun value rest
    some (d :: ds)
  | c :: rest => do
    let d ← value c
    let ds ← digitRun value rest
    some (d :: ds)

/-- The digit value of a character in a base up to sixteen. -/
def digitIn (base : Nat) (c : Char) : Option Nat :=
  (Text.hexDigit? c).bind fun d => if d < base then some d else none

/-- An integer within 64 bits. -/
def bounded (i : Int) : Option Json :=
  if -(2 ^ 63) ≤ i ∧ i < 2 ^ 63 then some (Json.ofInt i) else none

/-- A number written in base two, eight or sixteen. -/
def readBased (base : Nat) (s : List Char) : Option Json :=
  (digitRun (digitIn base) s).bind fun ds => bounded (ds.foldl (fun n d => base * n + d) 0 : Nat)

/-- A sign and the rest. -/
def signOf : List Char → Bool × List Char
  | '-' :: rest => (true, rest)
  | '+' :: rest => (false, rest)
  | rest => (false, rest)

/-- Whether decimal digits start with a zero that is not the only one. -/
def leadsWithZero : List Nat → Bool
  | 0 :: _ :: _ => true
  | _ => false

/-- A decimal integer. -/
def readDecimal (s : List Char) : Option Json :=
  let (negative, s) := signOf s
  (digitRun (digitIn 10) s).bind fun ds =>
    if leadsWithZero ds then none
    else bounded (if negative then -(Text.ofDigits ds : Int) else Text.ofDigits ds)

/-- The characters before and after the first one of a class. -/
def cutAt (p : Char → Bool) (s : List Char) : List Char × Option (List Char) :=
  match s.dropWhile (fun c => !p c) with
  | [] => (s, none)
  | _ :: rest => (s.takeWhile (fun c => !p c), some rest)

/-- A number with places, an exponent or both; also the infinities and NaN. -/
def readFloat (s : List Char) : Option Json :=
  let (negative, s) := signOf s
  let made := fun (x : Binary64) => some (Json.number (.real x))
  if s = ['i', 'n', 'f'] then made (Binary64.infinity negative)
  else if s = ['n', 'a', 'n'] then made Binary64.nan
  else do
    let (mantissa, exponent) := cutAt (fun c => c = 'e' || c = 'E') s
    let (whole, places) := cutAt (· = '.') mantissa
    let whole ← digitRun (digitIn 10) whole
    if leadsWithZero whole then none
    else
      let places ← match places with
        | none => some []
        | some ds => digitRun (digitIn 10) ds
      let e ← match exponent with
        | none => some 0
        | some ds =>
          let (neg, ds) := signOf ds
          (digitRun (digitIn 10) ds).map fun ds =>
            if neg then -(Text.ofDigits ds : Int) else Text.ofDigits ds
      if places.isEmpty ∧ exponent.isNone then none
      else
        made (Binary64.ofDecimal negative (Text.ofDigits (whole ++ places)) (e - places.length))

/-- A number of exactly `width` digits within bounds, and what follows. -/
def fixedField (width low high : Nat) (s : List Char) : Option (List Char) :=
  match Text.digits? (s.take width) with
  | some ds =>
    if ds.length = width ∧ low ≤ Text.ofDigits ds ∧ Text.ofDigits ds ≤ high then
      some (s.drop width)
    else none
  | none => none

/-- A given character. -/
def mark (c : Char) : List Char → Option (List Char)
  | [] => none
  | d :: rest => if c = d then some rest else none

/-- Year, month and day. -/
def dateField (s : List Char) : Option (List Char) := do
  let s ← mark '-' (← fixedField 4 0 9999 s)
  let s ← mark '-' (← fixedField 2 1 12 s)
  fixedField 2 1 31 s

/-- Hour, minute, second and an optional fraction. -/
def timeField (s : List Char) : Option (List Char) := do
  let s ← mark ':' (← fixedField 2 0 23 s)
  let s ← mark ':' (← fixedField 2 0 59 s)
  let s ← fixedField 2 0 60 s
  match s with
  | '.' :: rest =>
    let ds := rest.takeWhile Text.isDigit
    if ds.isEmpty then none else some (rest.drop ds.length)
  | s => some s

/-- An offset from universal time, or nothing. -/
def offsetField (s : List Char) : Option (List Char) :=
  match s with
  | 'Z' :: rest => some rest
  | 'z' :: rest => some rest
  | '+' :: rest => do fixedField 2 0 59 (← mark ':' (← fixedField 2 0 23 rest))
  | '-' :: rest => do fixedField 2 0 59 (← mark ':' (← fixedField 2 0 23 rest))
  | s => some s

/-- A date with or without a time, or a time. -/
def isMoment (s : List Char) : Bool :=
  match dateField s with
  | some [] => true
  | some (c :: rest) =>
    (c = 'T' || c = 't' || c = ' ') && ((timeField rest).bind offsetField == some [])
  | none => timeField s == some []

/-- Whether a scalar can hold the character. -/
def isScalarChar (c : Char) : Bool :=
  c.isAlphanum || c = '+' || c = '-' || c = '_' || c = '.' || c = ':'

/-- The scalar that the text denotes. A date is kept as a document that no setting accepts. -/
def scalar? (s : List Char) : Option Json :=
  if s = ['t', 'r', 'u', 'e'] then some (.bool true)
  else if s = ['f', 'a', 'l', 's', 'e'] then some (.bool false)
  else
    match s with
    | '0' :: 'x' :: rest => readBased 16 rest
    | '0' :: 'o' :: rest => readBased 8 rest
    | '0' :: 'b' :: rest => readBased 2 rest
    | _ =>
      if isMoment s then some (.object [("date", .string (String.ofList s))])
      else (readDecimal s).orElse fun _ => readFloat s

/-- The characters of a scalar, where a blank belongs to it between a date and a time. -/
def scalarChars (s : List Char) : List Char :=
  let first := s.takeWhile isScalarChar
  match s.drop first.length with
  | ' ' :: rest =>
    let second := rest.takeWhile isScalarChar
    if dateField first = some [] ∧ isMoment (first ++ ' ' :: second) then first ++ ' ' :: second
    else first
  | _ => first

end TableTail.Toml
