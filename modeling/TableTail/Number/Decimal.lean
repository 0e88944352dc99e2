import TableTail.Number.Power
import TableTail.Text.Digits

/-!
# Decimals

Decimal numbers with a 96-bit mantissa and up to 28 places. Numbers compare by value: `1.5` and
`1.50` are the same, and so are the two zeros.
-/

namespace TableTail

/-- The number `± mantissa / 10 ^ scale`. -/
structure Decimal where
  negative : Bool
  mantissa : Nat
  scale : Nat
  mantissa_lt : mantissa < 2 ^ 96
  scale_le : scale ≤ 28
  deriving DecidableEq, Repr

namespace Decimal

/-- The decimal with the given parts, when they are within the limits. -/
def ofParts? (negative : Bool) (mantissa scale : Nat) : Option Decimal :=
  if h : mantissa < 2 ^ 96 ∧ scale ≤ 28 then some ⟨negative, mantissa, scale, h.1, h.2⟩ else none

/-- Zero. -/
def zero : Decimal := ⟨false, 0, 0, by decide, by decide⟩

instance : Inhabited Decimal := ⟨zero⟩

/-- A 64-bit integer as a decimal. -/
def ofInt64 (i : Int64) : Decimal :=
  ⟨i.toInt < 0, i.toInt.natAbs, 0, by
    have h₁ := i.toInt_lt
    have h₂ := i.le_toInt
    omega, by decide⟩

/-- The signed mantissa. -/
def signed (d : Decimal) : Int := if d.negative then -(d.mantissa : Int) else d.mantissa

/-- Whether the number is an integer. -/
def isIntegral (d : Decimal) : Bool := d.mantissa % 10 ^ d.scale == 0

/-- The order of the values, whatever the scales. -/
def compareValue (a b : Decimal) : Ordering :=
  compare (a.signed * 10 ^ b.scale) (b.signed * 10 ^ a.scale)

instance : Ord Decimal := ⟨compareValue⟩

/-- Mantissa and scale without trailing zeros among the places. -/
def strip : Nat → Nat → Nat × Nat
  | m, 0 => (m, 0)
  | m, s + 1 => if m % 10 = 0 then strip (m / 10) s else (m, s + 1)

theorem strip_fst_le (m s : Nat) : (strip m s).1 ≤ m := by
  fun_induction strip m s with
  | case1 => exact Nat.le_refl _
  | case2 m s h ih => exact Nat.le_trans ih (Nat.div_le_self m 10)
  | case3 => exact Nat.le_refl _

theorem strip_snd_le (m s : Nat) : (strip m s).2 ≤ s := by
  fun_induction strip m s with
  | case1 => exact Nat.le_refl _
  | case2 m s h ih => omega
  | case3 => exact Nat.le_refl _

/-- The value is kept when zeros are stripped. -/
theorem strip_value (m s : Nat) : (strip m s).1 * 10 ^ s = m * 10 ^ (strip m s).2 := by
  fun_induction strip m s with
  | case1 => rfl
  | case2 m s h ih =>
    have hm : m = m / 10 * 10 := by omega
    rw [Nat.pow_succ, ← Nat.mul_assoc, ih]
    generalize (strip (m / 10) s).2 = k
    calc m / 10 * 10 ^ k * 10 = m / 10 * 10 * 10 ^ k := by ac_rfl
      _ = m * 10 ^ k := by rw [← hm]
  | case3 => rfl

/-- The same value with the fewest places; zero loses its sign. -/
def normalize (d : Decimal) : Decimal :=
  if d.mantissa = 0 then zero
  else
    ⟨d.negative, (strip d.mantissa d.scale).1, (strip d.mantissa d.scale).2,
      Nat.lt_of_le_of_lt (strip_fst_le _ _) d.mantissa_lt,
      Nat.le_trans (strip_snd_le _ _) d.scale_le⟩

/-- The digits of the mantissa with a point before the last `scale` of them. -/
def digitsText (d : Decimal) : String :=
  if d.scale = 0 then Text.natText d.mantissa
  else
    Text.natText (d.mantissa / 10 ^ d.scale) ++ "." ++
      Text.padded d.scale (d.mantissa % 10 ^ d.scale)

/-- The text of the normalized value: no trailing zeros and no negative zero. -/
def text (d : Decimal) : String :=
  let n := d.normalize
  (if n.negative then "-" else "") ++ n.digitsText

end Decimal

end TableTail
