import TableTail.Number.Binary64
import TableTail.Text.Digits

/-!
# The shortest decimal of a double

The fewest decimal digits that lie nearer to a finite double than to any other, and the two layouts
in which programs print them: without an exponent at all, and with an exponent outside a range.
-/

namespace TableTail

/-- Decimal digits `d₁ … dₙ` read as `0.d₁ … dₙ * 10 ^ point`. -/
structure Decimals where
  digits : List Nat
  point : Int
  deriving Repr, DecidableEq

namespace Binary64

/-- The number of decimal digits of a natural number, none for zero. -/
def digitCount (n : Nat) : Nat := if n = 0 then 0 else (Text.toDigits n).length

/-- The `k` with `10 ^ (k - 1) ≤ a / d < 10 ^ k`, for positive `a` and `d`. -/
def decimalPoint (a d : Nat) : Int :=
  if d ≤ a then digitCount (a / d) else 1 - (digitCount ((d - 1) / a) : Int)

/-- Twice the bounds of the reals that round to a positive magnitude of units. -/
def roundingBounds (x : Binary64) : Nat × Nat :=
  let v := 4 * x.magnitude
  let ulp := 2 ^ x.unit
  let below := if x.significand = 2 ^ 52 ∧ 0 < x.unit then ulp else 2 * ulp
  (v - below, v + 2 * ulp)

/-- Whether `n / d` units round to `x`: the bounds belong to an even significand only. -/
def readsBack (x : Binary64) (n d : Nat) : Bool :=
  let (low, high) := x.roundingBounds
  if x.significand % 2 = 0 then low * d ≤ 4 * n && 4 * n ≤ high * d
  else low * d < 4 * n && 4 * n < high * d

/-- The multiple of `10 ^ (point - count)` nearest to `x` among its two neighbours on that grid,
when it reads back as `x`. -/
def onGrid (x : Binary64) (point : Int) (count : Nat) : Option Nat :=
  -- one grid step is `stepNum / stepDen` units
  let shift := point - count
  let stepNum := 2 ^ 1074 * 10 ^ shift.toNat
  let stepDen := 10 ^ (-shift).toNat
  let a := x.magnitude * stepDen
  let low := a / stepNum
  let lowFits := x.readsBack (low * stepNum) stepDen
  let highFits := x.readsBack ((low + 1) * stepNum) stepDen
  if lowFits && highFits then
    let r := a % stepNum
    if 2 * r < stepNum then some low
    else if stepNum < 2 * r then some (low + 1)
    else if low % 2 = 0 then some low else some (low + 1)
  else if lowFits then some low
  else if highFits then some (low + 1)
  else none

/-- The first grid from `count` digits on that has a hit; `fuel` more grids are tried. -/
def shortestFrom (x : Binary64) (point : Int) : Nat → Nat → Nat × Nat
  | 0, count => (x.magnitude, count)
  | fuel + 1, count =>
    match x.onGrid point count with
    | some n => (n, count)
    | none => shortestFrom x point fuel (count + 1)

/-- The digit list without its trailing zeros. -/
def dropTrailingZeros (ds : List Nat) : List Nat := (ds.reverse.dropWhile (· = 0)).reverse

/-- The fewest digits that read back as a finite number other than zero. Seventeen always do. -/
def shortest (x : Binary64) : Decimals :=
  let point := decimalPoint x.magnitude (2 ^ 1074)
  let (n, count) := shortestFrom x point 17 1
  let ds := Text.toDigits n
  ⟨dropTrailingZeros ds, point + ((ds.length : Int) - count)⟩

/-- Zeros as digit characters. -/
def zeros (n : Nat) : List Char := List.replicate n '0'

/-- Digits in positional notation; `whole` follows a number without places. -/
def positional (d : Decimals) (whole : String) : String :=
  let ds := d.digits.map Text.digitChar
  let n := ds.length
  if d.point ≤ 0 then "0." ++ String.ofList (zeros (-d.point).toNat ++ ds)
  else
    let k := d.point.toNat
    if n ≤ k then String.ofList (ds ++ zeros (k - n)) ++ whole
    else String.ofList (ds.take k) ++ "." ++ String.ofList (ds.drop k)

/-- Digits in scientific notation, the exponent always signed. -/
def scientific (d : Decimals) : String :=
  let ds := d.digits.map Text.digitChar
  let e := d.point - 1
  let tail := if ds.length ≤ 1 then [] else '.' :: ds.drop 1
  String.ofList (ds.take 1 ++ tail) ++ "e" ++ (if e < 0 then "-" else "+") ++
    Text.natText e.natAbs

/-- The plain text of a number: shortest digits, never an exponent, no places when integral. -/
def plainText (x : Binary64) : String :=
  if x.isNaN then "NaN"
  else
    let sign := if x.negative then "-" else ""
    if x.isInfinite then sign ++ "inf"
    else if x.magnitude = 0 then sign ++ "0"
    else sign ++ positional x.shortest ""

/-- The text of a finite number in a JSON document: always with a place or an exponent, which
starts below `10 ^ -5` and from `10 ^ 16` on. -/
def jsonText (x : Binary64) : String :=
  let sign := if x.negative then "-" else ""
  if x.magnitude = 0 then sign ++ "0.0"
  else
    let d := x.shortest
    if -5 < d.point ∧ d.point ≤ 16 then sign ++ positional d ".0" else sign ++ scientific d

end Binary64

end TableTail
