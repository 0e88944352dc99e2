import Mathlib.Algebra.Order.Field.Rat
import Mathlib.Data.Rat.Cast.Order
import Mathlib.Tactic.Ring
import TableTail.Number.Conversion

/-!
# Exact values

The rational number that a finite double or a decimal is, and what their integers are. A magnitude
counts units of which a power of two make one (`Binary64.placeBits`), a mantissa units of which a
power of ten do.
-/

namespace TableTail

/-- The bits that a magnitude has behind the point. -/
@[irreducible] def Binary64.placeBits : ℕ := 1074

/-- The exact value of a finite double. -/
def Binary64.value (x : Binary64) : ℚ := x.scaled / (2 ^ placeBits : ℕ)

/-- The exact value of a decimal. -/
def Decimal.value (d : Decimal) : ℚ := d.signed / (10 ^ d.scale : ℕ)

variable {x : Binary64} {d : Decimal} {n : ℤ}

namespace Binary64

/-- The number of these bits. -/
lemma placeBits_eq : placeBits = 1074 := by rw [placeBits]

/-- As a number a power of two is not zero. -/
lemma pow_placeBits_ne_zero : ((2 ^ placeBits : ℕ) : ℚ) ≠ 0 :=
  Nat.cast_ne_zero.2 (Nat.two_pow_pos placeBits).ne'

/-- A significand has 53 bits at most. -/
lemma significand_lt (x : Binary64) : x.significand < 2 ^ 53 := by
  have hfraction : x.fraction < 2 ^ 52 := Nat.mod_lt _ (by decide)
  unfold significand
  split <;> omega

/-- A magnitude is the size of what is scaled. -/
lemma natAbs_scaled (x : Binary64) : x.scaled.natAbs = x.magnitude := by
  unfold scaled
  split <;> simp

/-- The magnitude of a double whose value is a fraction. -/
lemma magnitude_of_value {m : ℕ} (hm : 0 < m) (h : x.value = n / m) :
    n.natAbs * 2 ^ placeBits = x.magnitude * m := by
  have hm' : (m : ℚ) ≠ 0 := Nat.cast_ne_zero.2 hm.ne'
  rw [value, div_eq_div_iff pow_placeBits_ne_zero hm'] at h
  have hscaled : x.scaled * m = n * (2 ^ placeBits : ℕ) := by exact_mod_cast h
  have habs := congrArg Int.natAbs hscaled
  rw [Int.natAbs_mul, Int.natAbs_mul, Int.natAbs_natCast, Int.natAbs_natCast, natAbs_scaled] at habs
  exact habs.symm

/-- A double with an integral value is a multiple of the units of one. -/
lemma scaled_of_value (h : x.value = n) : x.scaled = n * (2 ^ placeBits : ℕ) := by
  rw [value, div_eq_iff pow_placeBits_ne_zero] at h
  exact_mod_cast h

/-- A finite double is integral where its value is an integer. -/
lemma isIntegral_iff (hfinite : x.isFinite = true) :
    x.isIntegral = true ↔ ∃ n : ℤ, x.value = n := by
  have hmultiple : x.isIntegral = true ↔ ((2 ^ placeBits : ℕ) : ℤ) ∣ x.scaled := by
    rw [isIntegral, hfinite, Bool.true_and, beq_iff_eq, ← placeBits_eq, Int.natCast_dvd,
      natAbs_scaled, Nat.dvd_iff_mod_eq_zero]
  rw [hmultiple]
  constructor
  · rintro ⟨n, hn⟩
    refine ⟨n, ?_⟩
    rw [value, div_eq_iff pow_placeBits_ne_zero, hn, Int.mul_comm, Int.cast_mul, Int.cast_natCast]
  · rintro ⟨n, hn⟩
    exact ⟨n, by rw [scaled_of_value hn, Int.mul_comm]⟩

/-- A finite double with an integral value becomes this integer, held within the 64-bit range. -/
lemma toInt64_of_value (hfinite : x.isFinite = true) (h : x.value = n) :
    x.toInt64 = Int64.ofInt (max (-2 ^ 63) (min n (2 ^ 63 - 1))) := by
  have hexponent : (x.exponentField == 2047) = false := by simpa [isFinite] using hfinite
  have hscaled := scaled_of_value h
  have hpos : (0 : ℤ) < (2 ^ placeBits : ℕ) := Int.natCast_pos.2 (Nat.two_pow_pos placeBits)
  have hsize : x.magnitude / 2 ^ placeBits = n.natAbs := by
    rw [← natAbs_scaled, hscaled, Int.natAbs_mul, Int.natAbs_natCast,
      Nat.mul_div_cancel _ (Nat.two_pow_pos placeBits)]
  simp only [toInt64, isNaN, isInfinite, hexponent, ← placeBits_eq, hsize, Bool.false_and,
    Bool.false_eq_true, if_false]
  unfold scaled at hscaled
  split
  · next hnegative =>
    rw [if_pos hnegative] at hscaled
    have hle : n ≤ 0 := by
      apply le_of_mul_le_mul_right _ hpos
      omega
    congr 1
    omega
  · next hnegative =>
    rw [if_neg hnegative] at hscaled
    have hge : 0 ≤ n := by
      apply le_of_mul_le_mul_right _ hpos
      omega
    congr 1
    omega

end Binary64

namespace Decimal

/-- As a number a power of ten is not zero. -/
lemma pow_scale_ne_zero (d : Decimal) : ((10 ^ d.scale : ℕ) : ℚ) ≠ 0 :=
  Nat.cast_ne_zero.2 (Nat.pow_pos (by decide)).ne'

/-- A decimal with an integral value is a multiple of the units of one. -/
lemma signed_of_value (h : d.value = n) : d.signed = n * (10 ^ d.scale : ℕ) := by
  rw [value, div_eq_iff d.pow_scale_ne_zero] at h
  exact_mod_cast h

/-- A signed mantissa is a mantissa with a sign. -/
lemma natAbs_signed (d : Decimal) : d.signed.natAbs = d.mantissa := by
  unfold signed
  split <;> simp

/-- A decimal is integral where its value is an integer. -/
lemma isIntegral_iff : d.isIntegral = true ↔ ∃ n : ℤ, d.value = n := by
  have hmultiple : d.isIntegral = true ↔ ((10 ^ d.scale : ℕ) : ℤ) ∣ d.signed := by
    rw [isIntegral, beq_iff_eq, Int.natCast_dvd, natAbs_signed, Nat.dvd_iff_mod_eq_zero]
  rw [hmultiple]
  constructor
  · rintro ⟨n, hn⟩
    refine ⟨n, ?_⟩
    rw [value, div_eq_iff d.pow_scale_ne_zero, hn, Int.mul_comm, Int.cast_mul, Int.cast_natCast]
  · rintro ⟨n, hn⟩
    exact ⟨n, by rw [signed_of_value hn, Int.mul_comm]⟩

/-- A decimal with the sign and the magnitude of a double has its value. -/
lemma value_eq_of_magnitude (hsign : d.negative = x.negative)
    (h : d.mantissa * 2 ^ Binary64.placeBits = x.magnitude * 10 ^ d.scale) :
    d.value = x.value := by
  have hsize : (d.mantissa : ℚ) / (10 ^ d.scale : ℕ) =
      x.magnitude / (2 ^ Binary64.placeBits : ℕ) := by
    rw [div_eq_div_iff d.pow_scale_ne_zero Binary64.pow_placeBits_ne_zero, ← Nat.cast_mul, ← Nat.cast_mul, h]
  unfold value Binary64.value signed Binary64.scaled
  rw [hsign]
  split
  · rw [Int.cast_neg, Int.cast_neg, neg_div, neg_div, Int.cast_natCast, Int.cast_natCast, hsize]
  · rw [Int.cast_natCast, Int.cast_natCast, hsize]

/-- The integer that a decimal is. -/
lemma value_ofInt64 (i : Int64) : (ofInt64 i).value = i.toInt := by
  have hsigned : (ofInt64 i).signed = i.toInt := by
    simp only [ofInt64, signed, decide_eq_true_eq]
    split <;> omega
  rw [value, hsigned]
  simp [ofInt64]

end Decimal

end TableTail
