import TableTail.Number.Binary64
import TableTail.Number.Decimal

/-!
# Decimals and doubles

A double becomes a decimal of about sixteen significant digits; a decimal becomes a double by the
floating-point steps below, which may miss the nearest one.
-/

namespace TableTail

namespace Decimal

/-- A 96-bit mantissa with the power of five still to be multiplied in, and the power of ten. The
factor five goes in exactly while there is room for it; otherwise a bit is given up. -/
def absorbFives : Nat → Nat → Int → Nat × Int
  | 0, m, e => (m, e)
  | fives + 1, m, e =>
    if m % 2 = 0 then absorbFives fives (m / 2) (e + 1)
    else if m * 5 < 2 ^ 96 then absorbFives fives (m * 5) e
    else absorbFives fives (m / 2) (e + 1)

/-- Divides the mantissa by five, `count` times: by doubling it for a tenth while there is room,
and otherwise directly. -/
def absorbTwos : Nat → Nat → Int → Nat × Int
  | 0, m, e => (m, e)
  | twos + 1, m, e =>
    if m < 2 ^ 95 then absorbTwos twos (m * 2) (e - 1) else absorbTwos twos (m / 5) e

/-- Multiplies by ten until the power of ten is gone, if there is room. -/
def raiseTens : Nat → Nat → Option Nat
  | 0, m => some m
  | tens + 1, m => if m * 10 < 2 ^ 96 then raiseTens tens (m * 10) else none

/-- Divides by ten, a five going up. -/
def tenth (m : Nat) : Nat := if 5 ≤ m % 10 then m / 10 + 1 else m / 10

/-- Cuts places until at most 28 are left; nothing is left of a number that vanishes. -/
def cutPlaces : Nat → Nat → Nat × Nat
  | 0, m => (m, 28)
  | excess + 1, m => if m / 10 = 0 then (0, 0) else cutPlaces excess (tenth m)

/-- Cuts places while the mantissa is above the 52 bits that a double's digits fill. -/
def cutDigits : Nat → Nat → Nat × Nat
  | m, 0 => (m, 0)
  | m, s + 1 => if 2 ^ 52 ≤ m then cutDigits (tenth m) s else (m, s + 1)

/-- The decimal for a double, when it is finite and within the range of decimals. -/
def ofBinary64? (x : Binary64) : Option Decimal :=
  if x.isFinite then
    if x.magnitude = 0 then ofParts? x.negative 0 0
    else
      let e : Int := (x.unit : Int) - 1074
      -- `2 ^ e = 10 ^ e * 5 ^ (-e)`
      let (m, tens) :=
        if e < 0 then absorbFives (-e).toNat x.significand e
        else absorbTwos e.toNat x.significand e
      let placed : Option (Nat × Nat) :=
        if 0 < tens then (raiseTens tens.toNat m).map fun m => (m, 0)
        else
          let scale := (-tens).toNat
          if 28 < scale then some (cutPlaces (scale - 28) m) else some (m, scale)
      placed.bind fun (m, s) =>
        let (m, s) := cutDigits m s
        let (m, s) := strip m s
        ofParts? x.negative m s
  else none

end Decimal

namespace Binary64

/-- `10 ^ n` by squaring in double arithmetic. -/
def tenPower (n : Nat) : Binary64 :=
  let rec go : Nat → Nat → Binary64 → Binary64 → Binary64
    | 0, _, _, r => r
    | fuel + 1, n, base, r =>
      let r := if n % 2 = 1 then r.times base else r
      if n / 2 = 0 then r else go fuel (n / 2) (base.times base) r
  go 64 n (ofInt 10) (ofInt 1)

/-- The double for a decimal: the integral part and the fraction converted apart and added, and the
sum rounded to the decimal's own number of places. -/
def ofDecimalValue (d : Decimal) : Binary64 :=
  let sign := fun (x : Binary64) => if d.negative then x.neg else x
  let precision := 10 ^ d.scale
  let whole := ofInt (d.mantissa / precision : Nat)
  if d.scale = 0 then sign (ofInt d.mantissa)
  else
    let places := (ofInt (d.mantissa % precision : Nat)).dividedBy (ofInt precision)
    if places.magnitude = 0 then sign whole
    else
      let power := tenPower d.scale
      sign ((ofInt ((whole.plus places).times power).roundedMagnitude).dividedBy power)

end Binary64

end TableTail
