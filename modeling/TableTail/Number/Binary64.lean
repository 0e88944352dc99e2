import TableTail.Number.Power

/-!
# Double-precision numbers

IEEE 754 `binary64` values as 64-bit words, with arithmetic on natural numbers. A finite double is
`± magnitude / 2 ^ 1074`, so a computation on doubles is an exact computation on magnitudes followed
by one rounding to nearest, ties to even.
-/

namespace TableTail

/-- A double-precision number, given by its 64-bit word. -/
structure Binary64 where
  bits : UInt64
  deriving DecidableEq, Repr, Inhabited

namespace Binary64

/-- The word as a natural number. -/
def word (x : Binary64) : Nat := x.bits.toNat

/-- Whether the sign bit is set; negative zero has it too. -/
def negative (x : Binary64) : Bool := 2 ^ 63 ≤ x.word

/-- The eleven exponent bits. -/
def exponentField (x : Binary64) : Nat := x.word / 2 ^ 52 % 2048

/-- The fifty-two fraction bits. -/
def fraction (x : Binary64) : Nat := x.word % 2 ^ 52

/-- Neither an infinity nor a NaN. -/
def isFinite (x : Binary64) : Bool := x.exponentField != 2047

/-- Not a number. -/
def isNaN (x : Binary64) : Bool := x.exponentField == 2047 && x.fraction != 0

/-- An infinity of either sign. -/
def isInfinite (x : Binary64) : Bool := x.exponentField == 2047 && x.fraction == 0

/-- The significand with its hidden bit; subnormal numbers have none. -/
def significand (x : Binary64) : Nat :=
  if x.exponentField = 0 then x.fraction else 2 ^ 52 + x.fraction

/-- The exponent of the last significand bit, counted from the smallest one. -/
def unit (x : Binary64) : Nat := x.exponentField - 1

/-- The absolute value of a finite number in units of `2 ^ -1074`. -/
def magnitude (x : Binary64) : Nat := x.significand * 2 ^ x.unit

/-- A finite number in units of `2 ^ -1074`. -/
def scaled (x : Binary64) : Int := if x.negative then -(x.magnitude : Int) else x.magnitude

/-- The number `± m * 2 ^ p` units, for `m < 2 ^ 53` with `2 ^ 52 ≤ m` unless `p = 0`. -/
def ofParts (negative : Bool) (m p : Nat) : Binary64 :=
  ⟨UInt64.ofNat ((if negative then 2 ^ 63 else 0) +
    if m < 2 ^ 52 then m else (p + 1) * 2 ^ 52 + (m - 2 ^ 52))⟩

/-- The infinity of a sign. -/
def infinity (negative : Bool) : Binary64 :=
  ⟨UInt64.ofNat ((if negative then 2 ^ 63 else 0) + 2047 * 2 ^ 52)⟩

/-- A quiet NaN. -/
def nan : Binary64 := ⟨UInt64.ofNat (2047 * 2 ^ 52 + 2 ^ 51)⟩

/-- Positive zero. -/
def zero : Binary64 := ⟨0⟩

/-- The number with the other sign. -/
def neg (x : Binary64) : Binary64 :=
  ⟨UInt64.ofNat (if x.word < 2 ^ 63 then x.word + 2 ^ 63 else x.word - 2 ^ 63)⟩

/-- The natural number nearest to `a / d`, the even one of two as near. -/
def nearestEven (a d : Nat) : Nat :=
  let q := a / d
  let r := a % d
  if 2 * r < d then q
  else if d < 2 * r then q + 1
  else if q % 2 = 0 then q else q + 1

/-- The unit exponent that a number of `a / d` units is rounded at: the least `p` with
`a < d * 2 ^ (p + 53)`. -/
def unitFor (a d : Nat) : Nat :=
  let p := a.log2 - (d.log2 + 52)
  if 0 < p ∧ a < d * 2 ^ (p - 1 + 53) then p - 1 else p

/-- The double nearest to `± a / d` units of `2 ^ -1074`, for `0 < d`. Past the largest finite
number it is an infinity. -/
def ofUnits (negative : Bool) (a d : Nat) : Binary64 :=
  let p := unitFor a d
  let m := nearestEven a (d * 2 ^ p)
  let (m, p) := if m = 2 ^ 53 then (2 ^ 52, p + 1) else (m, p)
  if p ≤ 2045 then ofParts negative m p else infinity negative

/-- The double nearest to `± n / d`, for `0 < d`. -/
def ofRatio (negative : Bool) (n d : Nat) : Binary64 := ofUnits negative (n * 2 ^ 1074) d

/-- The double nearest to an integer. -/
def ofInt (i : Int) : Binary64 := ofRatio (i < 0) i.natAbs 1

/-- The product of two finite magnitudes, rounded. -/
def times (x y : Binary64) : Binary64 := ofUnits false (x.magnitude * y.magnitude) (2 ^ 1074)

/-- The quotient of two finite magnitudes, rounded; the divisor is not zero. -/
def dividedBy (x y : Binary64) : Binary64 := ofUnits false (x.magnitude * 2 ^ 1074) y.magnitude

/-- The sum of two finite magnitudes, rounded. -/
def plus (x y : Binary64) : Binary64 := ofUnits false (x.magnitude + y.magnitude) 1

/-- The integer nearest to a finite magnitude, a half going up. -/
def roundedMagnitude (x : Binary64) : Nat := (2 * x.magnitude + 2 ^ 1074) / 2 ^ 1075

/-- Whether a finite number is an integer. -/
def isIntegral (x : Binary64) : Bool := x.isFinite && x.magnitude % 2 ^ 1074 == 0

/-- The number cut to an integer and held within the 64-bit range; zero for a NaN. -/
def toInt64 (x : Binary64) : Int64 :=
  if x.isNaN then 0
  else
    let m := if x.isInfinite then 2 ^ 63 else x.magnitude / 2 ^ 1074
    if x.negative then Int64.ofInt (-(min m (2 ^ 63) : Nat))
    else Int64.ofInt (min m (2 ^ 63 - 1) : Nat)

/-- The order of two numbers of which neither is a NaN; the zeros are equal. -/
def orderKey (x : Binary64) : Int :=
  if x.isInfinite then (if x.negative then -(2 ^ 2200) else 2 ^ 2200) else x.scaled

/-- The order of an integer and a number that is not a NaN, without rounding. -/
def compareInt (i : Int) (x : Binary64) : Ordering := compare (i * 2 ^ 1074) x.orderKey

end Binary64

end TableTail
