import Mathlib.Data.Nat.Factorization.Basic
import Mathlib.Tactic.Positivity
import Mathlib.Tactic.Ring
import TableTail.Proofs.Number.Values

/-!
# Doubles that become decimals of the same value

A finite double is a fraction with a power of two below, and so it always is a decimal of some
places; but the conversion keeps sixteen digits of it at most. It gives a decimal of the same value
exactly for the integers that fit into the mantissa and for the fractions whose digits, without the
point, are a number below `2 ^ 52` (`Decimal.exists_ofBinary64?_iff`).
-/

namespace TableTail

/-- The values that a double keeps when it becomes a decimal. -/
def Decimal.Keeps (q : ℚ) : Prop :=
  (∃ n : ℤ, q = n ∧ n.natAbs < 2 ^ 96) ∨
    ∃ (n : ℤ) (places : ℕ), q = n / (10 ^ places : ℕ) ∧ n.natAbs < 2 ^ 52

variable {x : Binary64}

namespace Decimal

variable {d : Decimal}

/-! ## What comes out -/

/-- A number below `2 ^ 52` is not cut. -/
lemma cutDigits_of_lt {m : ℕ} (h : m < 2 ^ 52) (s : ℕ) : cutDigits m s = (m, s) := by
  cases s with
  | zero => rfl
  | succ s => rw [cutDigits, if_neg (Nat.not_le.2 h)]

/-- What still has places after the cut is below `2 ^ 52`. -/
lemma cutDigits_lt (m s : ℕ) (h : (cutDigits m s).2 ≠ 0) : (cutDigits m s).1 < 2 ^ 52 := by
  fun_induction cutDigits m s with
  | case1 m => exact absurd rfl h
  | case2 m s hle ih => exact ih h
  | case3 m s hlt => exact Nat.not_le.1 hlt

/-- What has places and no zero at the end is not stripped. -/
lemma strip_of_mod {m : ℕ} (h : m % 10 ≠ 0) (s : ℕ) : strip m s = (m, s) := by
  cases s with
  | zero => rfl
  | succ s => rw [strip, if_neg h]

/-- A double becomes a decimal of its sign, with digits below `2 ^ 52` unless it has no places. -/
lemma short_of_ofBinary64? (h : ofBinary64? x = some d) :
    d.negative = x.negative ∧ (d.scale = 0 ∨ d.mantissa < 2 ^ 52) := by
  have hparts : ∀ m s, ofParts? x.negative m s = some d →
      d.negative = x.negative ∧ d.mantissa = m ∧ d.scale = s := by
    intro m s hparts
    unfold ofParts? at hparts
    split at hparts
    · obtain rfl := Option.some.inj hparts
      exact ⟨rfl, rfl, rfl⟩
    · cases hparts
  unfold ofBinary64? at h
  split at h
  · split at h
    · obtain ⟨hsign, -, hscale⟩ := hparts _ _ h
      exact ⟨hsign, .inl hscale⟩
    · obtain ⟨⟨m, s⟩, -, h⟩ := Option.bind_eq_some_iff.1 h
      obtain ⟨hsign, hmantissa, hscale⟩ := hparts _ _ h
      refine ⟨hsign, ?_⟩
      rw [hmantissa, hscale]
      by_cases hcut : (cutDigits m s).2 = 0
      · have hle := strip_snd_le (cutDigits m s).1 (cutDigits m s).2
        left
        omega
      · right
        exact (strip_fst_le _ _).trans_lt (cutDigits_lt m s hcut)
  · cases h

/-! ## What goes in -/

/-- Halves are taken off exactly, each for a five that was to come. -/
lemma absorbFives_even (fives halves m : ℕ) (e : ℤ) :
    absorbFives (fives + halves) (m * 2 ^ halves) e = absorbFives fives m (e + halves) := by
  induction halves generalizing e with
  | zero => simp
  | succ halves ih =>
    have heven : m * 2 ^ (halves + 1) = 2 * (m * 2 ^ halves) := by ring
    have hhalf : 2 * (m * 2 ^ halves) / 2 = m * 2 ^ halves := Nat.mul_div_cancel_left _ (by decide)
    rw [heven, ← Nat.add_assoc, absorbFives, if_pos (Nat.mul_mod_right _ _), hhalf, ih]
    congr 1
    push_cast
    ring

/-- Fives are multiplied into an odd number exactly as long as there is room. -/
lemma absorbFives_odd {fives m : ℕ} (hodd : m % 2 = 1) (hroom : m * 5 ^ fives < 2 ^ 96) (e : ℤ) :
    absorbFives fives m e = (m * 5 ^ fives, e) := by
  induction fives generalizing m with
  | zero => simp [absorbFives]
  | succ fives ih =>
    have hsplit : m * 5 ^ (fives + 1) = m * 5 * 5 ^ fives := by ring
    have hnext : m * 5 ≤ m * 5 * 5 ^ fives := Nat.le_mul_of_pos_right _ (Nat.pow_pos (by decide))
    rw [absorbFives, if_neg (by omega), if_pos (by omega), hsplit]
    exact ih (by omega) (hsplit ▸ hroom)

/-- Twos are multiplied in exactly as long as there is room. -/
lemma absorbTwos_eq {twos m : ℕ} (hroom : m * 2 ^ twos < 2 ^ 96) (e : ℤ) :
    absorbTwos twos m e = (m * 2 ^ twos, e - twos) := by
  induction twos generalizing m e with
  | zero => simp [absorbTwos]
  | succ twos ih =>
    have hsplit : m * 2 ^ (twos + 1) = m * 2 * 2 ^ twos := by ring
    have hnext : m * 2 ≤ m * 2 * 2 ^ twos := Nat.le_mul_of_pos_right _ (Nat.two_pow_pos _)
    rw [absorbTwos, if_pos (by omega), ih (hsplit ▸ hroom), hsplit]
    congr 1
    push_cast
    ring

/-- A double becomes the decimal whose mantissa and power of ten its factors give, where nothing is
to be cut. -/
lemma ofBinary64?_of_factors {m s : ℕ} {e : ℤ} (hfinite : x.isFinite = true)
    (hmagnitude : x.magnitude ≠ 0) (he : e = (x.unit : ℤ) - 1074)
    (hfactors : (if e < 0 then absorbFives (-e).toNat x.significand e
      else absorbTwos e.toNat x.significand e) = (m, -(s : ℤ)))
    (hs : s ≤ 28) (hm : m < 2 ^ 96) (hshort : s = 0 ∨ m < 2 ^ 52 ∧ m % 10 ≠ 0) :
    ∃ d, ofBinary64? x = some d ∧ d.negative = x.negative ∧ d.mantissa = m ∧ d.scale = s := by
  have hcut : cutDigits m s = (m, s) := by
    rcases hshort with rfl | ⟨hlt, -⟩
    · rfl
    · exact cutDigits_of_lt hlt s
  have hstrip : strip m s = (m, s) := by
    rcases hshort with rfl | ⟨-, hmod⟩
    · rfl
    · exact strip_of_mod hmod s
  refine ⟨⟨x.negative, m, s, hm, hs⟩, ?_, rfl, rfl, rfl⟩
  subst he
  simp only [ofBinary64?, hfinite, hmagnitude, hfactors, if_true, if_false, Int.neg_neg,
    Int.toNat_natCast, Int.neg_pos]
  rw [if_neg (by omega), if_neg (by omega), Option.bind_some, hcut, hstrip, ofParts?,
    dif_pos ⟨hm, hs⟩]

/-- Zero becomes zero. -/
lemma ofBinary64?_zero (hfinite : x.isFinite = true) (hmagnitude : x.magnitude = 0) :
    ∃ d, ofBinary64? x = some d ∧ d.negative = x.negative ∧ d.mantissa = 0 ∧ d.scale = 0 := by
  refine ⟨⟨x.negative, 0, 0, by decide, by decide⟩, ?_, rfl, rfl, rfl⟩
  rw [ofBinary64?, if_pos hfinite, if_pos hmagnitude]
  rfl

/-- An integer with a power of two below is kept where this power goes out. -/
lemma ofBinary64?_of_halves {n halves : ℕ} (hfinite : x.isFinite = true)
    (hmagnitude : x.magnitude ≠ 0) (hunit : x.unit + halves = Binary64.placeBits) (hpos : 0 < halves)
    (hsignificand : x.significand = n * 2 ^ halves) (hlt : n < 2 ^ 96) :
    ∃ d, ofBinary64? x = some d ∧ d.negative = x.negative ∧ d.mantissa = n ∧ d.scale = 0 := by
  apply ofBinary64?_of_factors hfinite hmagnitude rfl _ (Nat.zero_le _) hlt (.inl rfl)
  rw [Binary64.placeBits_eq] at hunit
  have hexponent : (-((x.unit : ℤ) - 1074)).toNat = 0 + halves := by omega
  have hleft : (x.unit : ℤ) - 1074 + halves = -((0 : ℕ) : ℤ) := by omega
  rw [if_pos (by omega), hexponent, hsignificand, absorbFives_even, absorbFives, hleft]

/-- An integer with a power of two above is kept where there is room for this power. -/
lemma ofBinary64?_of_doubles {n doubles : ℕ} (hfinite : x.isFinite = true)
    (hmagnitude : x.magnitude ≠ 0) (hunit : x.unit = Binary64.placeBits + doubles)
    (hsignificand : x.significand * 2 ^ doubles = n) (hlt : n < 2 ^ 96) :
    ∃ d, ofBinary64? x = some d ∧ d.negative = x.negative ∧ d.mantissa = n ∧ d.scale = 0 := by
  apply ofBinary64?_of_factors hfinite hmagnitude rfl _ (Nat.zero_le _) hlt (.inl rfl)
  rw [Binary64.placeBits_eq] at hunit
  have hexponent : ((x.unit : ℤ) - 1074).toNat = doubles := by omega
  have hleft : (x.unit : ℤ) - 1074 - doubles = -((0 : ℕ) : ℤ) := by omega
  rw [if_neg (by omega), hexponent, absorbTwos_eq (hsignificand ▸ hlt), hsignificand, hleft]

/-- An integer that fits into the mantissa is kept. -/
lemma ofBinary64?_of_integer {n : ℕ} (hfinite : x.isFinite = true)
    (hn : n * 2 ^ Binary64.placeBits = x.magnitude) (hlt : n < 2 ^ 96) :
    ∃ d, ofBinary64? x = some d ∧ d.negative = x.negative ∧ d.mantissa = n ∧ d.scale = 0 := by
  by_cases hzero : x.magnitude = 0
  · obtain rfl : n = 0 := by
      rw [hzero] at hn
      exact (Nat.mul_eq_zero.1 hn).resolve_right (Nat.two_pow_pos Binary64.placeBits).ne'
    exact ofBinary64?_zero hfinite hzero
  · rcases lt_or_ge x.unit Binary64.placeBits with hunit | hunit
    · obtain ⟨halves, hhalves⟩ := Nat.exists_eq_add_of_le hunit.le
      apply ofBinary64?_of_halves hfinite hzero hhalves.symm _ _ hlt
      · exact Nat.pos_of_ne_zero fun h => hunit.ne (by rw [hhalves, h, Nat.add_zero])
      · apply Nat.eq_of_mul_eq_mul_right (Nat.two_pow_pos x.unit)
        rw [Nat.mul_assoc, ← Nat.pow_add, Nat.add_comm halves, ← hhalves]
        exact hn.symm
    · obtain ⟨doubles, hdoubles⟩ := Nat.exists_eq_add_of_le hunit
      apply ofBinary64?_of_doubles hfinite hzero hdoubles _ hlt
      apply Nat.eq_of_mul_eq_mul_right (Nat.two_pow_pos Binary64.placeBits)
      rw [hn, Binary64.magnitude, hdoubles, Nat.mul_right_comm, Nat.mul_assoc, Nat.pow_add]

/-- A fraction with few digits is kept. -/
lemma ofBinary64?_of_fraction {odd halves places : ℕ} (hfinite : x.isFinite = true)
    (hodd : odd % 2 = 1) (hsignificand : x.significand = odd * 2 ^ halves)
    (hunit : x.unit + halves + places = Binary64.placeBits) (hpos : 0 < places)
    (hlt : odd * 5 ^ places < 2 ^ 52) :
    ∃ d, ofBinary64? x = some d ∧ d.negative = x.negative ∧ d.mantissa = odd * 5 ^ places ∧
      d.scale = places := by
  have hmagnitude : x.magnitude ≠ 0 := by
    have hodd' : odd ≠ 0 := by omega
    rw [Binary64.magnitude, hsignificand]
    positivity
  have hplaces : places ≤ 28 := by
    by_contra hmany
    have hfew : (5 : ℕ) ^ 29 ≤ 5 ^ places := Nat.pow_le_pow_right (by decide) (by omega)
    have hsome : 5 ^ places ≤ odd * 5 ^ places := Nat.le_mul_of_pos_left _ (by omega)
    omega
  have hmod : odd * 5 ^ places % 10 ≠ 0 := by
    have hparity : odd * 5 ^ places % 2 = 1 := by
      rw [Nat.mul_mod, hodd, Nat.pow_mod]
      simp
    omega
  rw [Binary64.placeBits_eq] at hunit
  have hfives := absorbFives_even places halves odd ((x.unit : ℤ) - 1074)
  rw [← hsignificand, absorbFives_odd hodd (hlt.trans (by decide))] at hfives
  apply ofBinary64?_of_factors hfinite hmagnitude rfl _ hplaces (hlt.trans (by decide))
    (.inr ⟨hlt, hmod⟩)
  rw [if_pos (by omega), show (-((x.unit : ℤ) - 1074)).toNat = places + halves by omega, hfives]
  congr 1
  omega

/-- A magnitude of some decimal places that is no multiple of its unit is an odd number above a power
of two. It has at least as many places as there are twos below, and as many fives are in its
digits. -/
lemma exists_odd_of_fraction {n s below : ℕ} (hn : n * 2 ^ below = x.magnitude * 10 ^ s)
    (hfraction : ¬ 2 ^ below ∣ x.magnitude) :
    ∃ odd halves places, odd % 2 = 1 ∧ x.significand = odd * 2 ^ halves ∧
      x.unit + halves + places = below ∧ 0 < places ∧ odd * 5 ^ places ≤ n := by
  have hsignificand : x.significand ≠ 0 := by
    intro hzero
    rw [Binary64.magnitude, hzero, Nat.zero_mul] at hfraction
    exact hfraction (Nat.dvd_zero _)
  obtain ⟨halves, odd, hodd, hsplit⟩ := Nat.exists_eq_two_pow_mul_odd hsignificand
  have hmagnitude : x.magnitude = odd * 2 ^ (x.unit + halves) := by
    rw [Binary64.magnitude, hsplit, Nat.pow_add]
    ring
  obtain ⟨places, hplaces⟩ : ∃ places, x.unit + halves + (places + 1) = below := by
    rcases Nat.lt_or_ge (x.unit + halves) below with hless | hle
    · exact ⟨below - (x.unit + halves) - 1, by omega⟩
    · rw [hmagnitude] at hfraction
      exact absurd ((Nat.pow_dvd_pow 2 hle).mul_left odd) hfraction
  -- cancelling the twos leaves `n * 2 ^ places = odd * 10 ^ s`
  have hcancelled : n * 2 ^ (places + 1) = odd * 10 ^ s := by
    apply Nat.eq_of_mul_eq_mul_right (Nat.two_pow_pos (x.unit + halves))
    rw [Nat.mul_assoc, ← Nat.pow_add, Nat.add_comm (places + 1), hplaces, hn, hmagnitude]
    ring
  have hcoprime : Nat.Coprime (2 ^ (places + 1)) odd :=
    (Nat.Coprime.pow_left _ (Nat.coprime_two_left.2 hodd))
  have hle : places + 1 ≤ s := by
    have hdvd : 2 ^ (places + 1) ∣ odd * (5 ^ s * 2 ^ s) := by
      rw [← Nat.mul_pow, ← hcancelled]
      exact Nat.dvd_mul_left _ _
    have hfives : Nat.Coprime (2 ^ (places + 1)) (5 ^ s) :=
      Nat.Coprime.pow _ _ (by decide)
    have htwos := hfives.dvd_of_dvd_mul_left (hcoprime.dvd_of_dvd_mul_left hdvd)
    exact (Nat.pow_dvd_pow_iff_le_right (by decide)).1 htwos
  have hn : n = odd * 5 ^ (places + 1) * 10 ^ (s - (places + 1)) := by
    apply Nat.eq_of_mul_eq_mul_right (Nat.two_pow_pos (places + 1))
    calc n * 2 ^ (places + 1) = odd * 10 ^ (places + 1 + (s - (places + 1))) := by
          rw [hcancelled, Nat.add_sub_cancel' hle]
      _ = odd * (5 * 2) ^ (places + 1) * 10 ^ (s - (places + 1)) := by
          rw [Nat.pow_add, Nat.mul_assoc]
      _ = odd * 5 ^ (places + 1) * 10 ^ (s - (places + 1)) * 2 ^ (places + 1) := by
          rw [Nat.mul_pow]
          ring
  refine ⟨odd, halves, places + 1, Nat.odd_iff.1 hodd, hsplit.trans (Nat.mul_comm _ _), hplaces,
    Nat.succ_pos _, ?_⟩
  rw [hn]
  exact Nat.le_mul_of_pos_right _ (Nat.pow_pos (by decide))

/-- A finite double becomes a decimal of the same value exactly if the value is an integer below
`2 ^ 96`, or if its digits without the point are a number below `2 ^ 52`. -/
theorem exists_ofBinary64?_iff (hfinite : x.isFinite = true) :
    (∃ d, ofBinary64? x = some d ∧ d.value = x.value) ↔ Keeps x.value := by
  constructor
  · rintro ⟨d, hd, hvalue⟩
    have hlt : d.signed.natAbs < 2 ^ 96 := d.natAbs_signed ▸ d.mantissa_lt
    rw [← hvalue, value]
    obtain ⟨-, hscale | hshort⟩ := short_of_ofBinary64? hd
    · exact .inl ⟨d.signed, by rw [hscale]; simp, hlt⟩
    · exact .inr ⟨d.signed, d.scale, rfl, d.natAbs_signed ▸ hshort⟩
  · have hinteger : ∀ n : ℕ, n * 2 ^ Binary64.placeBits = x.magnitude → n < 2 ^ 96 →
        ∃ d, ofBinary64? x = some d ∧ d.value = x.value := by
      intro n hn hlt
      obtain ⟨d, hd, hsign, hmantissa, hscale⟩ := ofBinary64?_of_integer hfinite hn hlt
      refine ⟨d, hd, value_eq_of_magnitude hsign ?_⟩
      rw [hmantissa, hscale, hn, Nat.pow_zero, Nat.mul_one]
    rintro (⟨n, hvalue, hlt⟩ | ⟨n, places, hvalue, hlt⟩)
    · have hn := Binary64.magnitude_of_value Nat.one_pos (by rw [hvalue, Nat.cast_one, div_one])
      exact hinteger n.natAbs (hn.trans (Nat.mul_one _)) hlt
    · have hn := Binary64.magnitude_of_value (Nat.pow_pos (by decide)) hvalue
      by_cases hdvd : 2 ^ Binary64.placeBits ∣ x.magnitude
      · obtain ⟨m, hm⟩ : ∃ m, x.magnitude = m * 2 ^ Binary64.placeBits :=
          ⟨_, (Nat.div_mul_cancel hdvd).symm⟩
        have hle : m ≤ n.natAbs := by
          have hscaled : n.natAbs = m * 10 ^ places := by
            apply Nat.eq_of_mul_eq_mul_right (Nat.two_pow_pos Binary64.placeBits)
            rw [hn, hm, Nat.mul_right_comm]
          exact hscaled ▸ Nat.le_mul_of_pos_right _ (Nat.pow_pos (by decide))
        exact hinteger m hm.symm ((hle.trans_lt hlt).trans (by decide))
      · obtain ⟨odd, halves, places', hodd, hsplit, hunit, hpos, hle⟩ :=
          exists_odd_of_fraction hn hdvd
        obtain ⟨d, hd, hsign, hmantissa, hscale⟩ :=
          ofBinary64?_of_fraction hfinite hodd hsplit hunit hpos (hle.trans_lt hlt)
        refine ⟨d, hd, value_eq_of_magnitude hsign ?_⟩
        rw [hmantissa, hscale, Binary64.magnitude, hsplit, ← hunit, show 10 = 5 * 2 from rfl,
          Nat.mul_pow]
        ring

end Decimal

end TableTail
