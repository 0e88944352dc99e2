import Mathlib.Data.List.TakeWhile
import TableTail.Number.Shortest
import TableTail.Proofs.Number.Values
import TableTail.Proofs.Text.FixedWidth

/-!
# The text of a double

The shortest digits of a double lie nearer to it than to any other, and seventeen digits always do
(`Binary64.onGrid_seventeen`). An integer that lies nearer to a double than to any other is this
double unless the double is an integer too; so the text of a double that is no integer has a point
(`Binary64.point_mem_plainText`).
-/

namespace TableTail.Binary64

variable {x : Binary64} {n d p : ℕ}

/-! ## Reading back -/

/-- Twice the distance below a double within which numbers round to it. -/
def gapBelow (x : Binary64) : ℕ :=
  if x.significand = 2 ^ 52 ∧ 0 < x.unit then 2 ^ x.unit else 2 * 2 ^ x.unit

/-- The bounds of the numbers that round to a double, by their distances. -/
lemma roundingBounds_eq (x : Binary64) :
    x.roundingBounds = (4 * x.magnitude - x.gapBelow, 4 * x.magnitude + 2 * 2 ^ x.unit) := rfl

/-- A gap is not wider than two units of the last place. -/
lemma gapBelow_le (x : Binary64) : x.gapBelow ≤ 2 * 2 ^ x.unit := by
  unfold gapBelow
  split <;> omega

/-- What reads back as a double is half a unit of the last place away at most. -/
lemma near_of_readsBack (h : x.readsBack n d = true) :
    2 * (x.magnitude * d) ≤ 2 * n + 2 ^ x.unit * d ∧
      2 * n ≤ 2 * (x.magnitude * d) + 2 ^ x.unit * d := by
  have hgap := Nat.mul_le_mul_right d x.gapBelow_le
  rw [readsBack, roundingBounds_eq] at h
  simp only [Nat.sub_mul, Nat.add_mul, Nat.mul_assoc] at h hgap
  split at h <;> simp only [Bool.and_eq_true, decide_eq_true_eq] at h <;> omega

/-- What is nearer to a double than half the gaps around it reads back as this double. -/
lemma readsBack_of_near (hlow : 4 * (x.magnitude * d) < 4 * n + x.gapBelow * d)
    (hhigh : 2 * n < 2 * (x.magnitude * d) + 2 ^ x.unit * d) : x.readsBack n d = true := by
  have hgap := Nat.mul_le_mul_right d x.gapBelow_le
  -- the lower bound is not cut at zero
  have hodd : x.significand % 2 ≠ 0 → 2 ^ x.unit * d ≤ x.magnitude * d := by
    intro hodd
    exact Nat.mul_le_mul_right d (Nat.le_mul_of_pos_left _ (by omega))
  rw [readsBack, roundingBounds_eq]
  simp only [Nat.sub_mul, Nat.add_mul, Nat.mul_assoc] at hgap ⊢
  split <;> simp only [Bool.and_eq_true, decide_eq_true_eq] <;> omega

/-- On a grid with a step below the unit of the last place one of two neighbours reads back. -/
lemma readsBack_neighbour {step : ℕ} (hstep : 0 < step)
    (hfine : 2 ^ 53 * step ≤ x.magnitude * d) :
    x.readsBack (x.magnitude * d / step * step) d = true ∨
      x.readsBack ((x.magnitude * d / step + 1) * step) d = true := by
  have hsplit := Nat.div_add_mod' (x.magnitude * d) step
  have hrest := Nat.mod_lt (x.magnitude * d) hstep
  have hunits : x.magnitude * d = x.significand * (2 ^ x.unit * d) := Nat.mul_assoc _ _ _
  have habove : step < 2 ^ x.unit * d := by
    have hpos : 0 < 2 ^ x.unit * d := by
      apply Nat.pos_of_ne_zero
      intro hzero
      rw [hunits, hzero] at hfine
      omega
    apply Nat.lt_of_mul_lt_mul_left (a := 2 ^ 53)
    calc 2 ^ 53 * step ≤ x.significand * (2 ^ x.unit * d) := hunits ▸ hfine
      _ < 2 ^ 53 * (2 ^ x.unit * d) := Nat.mul_lt_mul_of_pos_right x.significand_lt hpos
  have hbelow : 2 * step ≤ x.gapBelow * d := by
    unfold gapBelow
    split
    · next h =>
      rw [hunits, h.1] at hfine
      omega
    · rw [Nat.mul_assoc]
      omega
  by_cases hnear : 4 * (x.magnitude * d % step) < x.gapBelow * d
  · left
    apply readsBack_of_near <;> omega
  · right
    rw [Nat.add_mul, Nat.one_mul]
    apply readsBack_of_near <;> omega

/-! ## Grids -/

/-- What is found on a grid reads back. -/
lemma readsBack_of_onGrid {point : ℤ} {count : ℕ} (h : x.onGrid point count = some n) :
    x.readsBack (n * (2 ^ placeBits * 10 ^ (point - count).toNat))
      (10 ^ (-(point - count)).toNat) = true := by
  simp only [onGrid, ← placeBits_eq] at h
  split at h
  · next hboth =>
    obtain ⟨hlow, hhigh⟩ := Bool.and_eq_true_iff.1 hboth
    split at h
    · exact Option.some.inj h ▸ hlow
    · split at h
      · exact Option.some.inj h ▸ hhigh
      · split at h
        · exact Option.some.inj h ▸ hlow
        · exact Option.some.inj h ▸ hhigh
  · split at h
    · next hlow => exact Option.some.inj h ▸ hlow
    · split at h
      · next hhigh => exact Option.some.inj h ▸ hhigh
      · cases h

/-- Nothing is found on a grid only if neither neighbour reads back. -/
lemma not_readsBack_of_onGrid {point : ℤ} {count step den : ℕ} (h : x.onGrid point count = none)
    (hstep : 2 ^ placeBits * 10 ^ (point - count).toNat = step)
    (hden : 10 ^ (-(point - count)).toNat = den) :
    ¬ (x.readsBack (x.magnitude * den / step * step) den = true ∨
      x.readsBack ((x.magnitude * den / step + 1) * step) den = true) := by
  simp only [onGrid, ← placeBits_eq, hstep, hden] at h
  split at h
  · split at h
    · cases h
    · split at h
      · cases h
      · split at h <;> cases h
  · split at h
    · cases h
    · next hlow =>
      split at h
      · cases h
      · next hhigh => exact not_or.2 ⟨hlow, hhigh⟩

/-- The number of digits of a positive number. -/
lemma pow_digitCount_le (hpos : 0 < n) : 10 ^ (digitCount n - 1) ≤ n := by
  rw [digitCount, if_neg hpos.ne']
  by_contra hlt
  rcases Nat.eq_zero_or_pos ((Text.toDigits n).length - 1) with hone | hmore
  · rw [hone] at hlt
    omega
  · have hlength := Text.length_toDigits_le hmore (Nat.not_le.1 hlt)
    omega

/-- A number is below the power of ten of its digits. -/
lemma lt_pow_digitCount (n : ℕ) : n < 10 ^ digitCount n := by
  unfold digitCount
  split
  · next hzero => simp [hzero]
  · have hvalue := Text.ofDigits_lt (Text.areDigits_toDigits n)
    rwa [Text.ofDigits_toDigits] at hvalue

/-- The point of a fraction stands where its first digit is, or later. -/
lemma pow_decimalPoint_le {a den : ℕ} (ha : 0 < a) (hden : 0 < den) :
    den * 10 ^ (decimalPoint a den - 1).toNat ≤ a * 10 ^ (1 - decimalPoint a den).toNat := by
  unfold decimalPoint
  split
  · next hle =>
    have hquotient : 0 < a / den := Nat.div_pos hle hden
    have hdigits := pow_digitCount_le hquotient
    have hcount : 0 < digitCount (a / den) := by
      apply Nat.pos_of_ne_zero
      intro hzero
      have hlt := lt_pow_digitCount (a / den)
      rw [hzero] at hlt
      omega
    rw [show ((digitCount (a / den) : ℤ) - 1).toNat = digitCount (a / den) - 1 by omega,
      show (1 - (digitCount (a / den) : ℤ)).toNat = 0 by omega, Nat.pow_zero, Nat.mul_one]
    exact (Nat.mul_le_mul_left den hdigits).trans (Nat.mul_div_le a den)
  · next hlt =>
    have hdigits := lt_pow_digitCount ((den - 1) / a)
    have hbound := (Nat.div_lt_iff_lt_mul ha).1 hdigits
    rw [show (1 - (digitCount ((den - 1) / a) : ℤ) - 1).toNat = 0 by omega,
      show (1 - (1 - (digitCount ((den - 1) / a) : ℤ))).toNat = digitCount ((den - 1) / a) by omega,
      Nat.pow_zero, Nat.mul_one, Nat.mul_comm a]
    omega

/-- The last of seventeen places is finer by ten to sixteen than a number is large. -/
lemma pow_sixteen_le {a den : ℕ} {point : ℤ}
    (h : den * 10 ^ (point - 1).toNat ≤ a * 10 ^ (1 - point).toNat) :
    10 ^ 16 * (den * 10 ^ (point - 17).toNat) ≤ a * 10 ^ (-(point - 17)).toNat := by
  have hexponents : 16 + (point - 17).toNat + (1 - point).toNat =
      (-(point - 17)).toNat + (point - 1).toNat := by omega
  apply Nat.le_of_mul_le_mul_right (c := 10 ^ (point - 1).toNat) _ (Nat.pow_pos (by decide))
  calc 10 ^ 16 * (den * 10 ^ (point - 17).toNat) * 10 ^ (point - 1).toNat
      = 10 ^ (16 + (point - 17).toNat) * (den * 10 ^ (point - 1).toNat) := by
        rw [Nat.pow_add]
        ac_rfl
    _ ≤ 10 ^ (16 + (point - 17).toNat) * (a * 10 ^ (1 - point).toNat) :=
        Nat.mul_le_mul_left _ h
    _ = a * 10 ^ (-(point - 17)).toNat * 10 ^ (point - 1).toNat := by
        rw [Nat.mul_left_comm, ← Nat.pow_add, hexponents, Nat.pow_add, Nat.mul_assoc]

/-- Seventeen digits always read back. -/
theorem onGrid_seventeen (h : x.magnitude ≠ 0) :
    ∃ n, x.onGrid (decimalPoint x.magnitude (2 ^ placeBits)) 17 = some n := by
  have hpos := Nat.two_pow_pos placeBits
  have hfine := pow_sixteen_le (pow_decimalPoint_le (Nat.pos_of_ne_zero h) hpos)
  cases hgrid : x.onGrid (decimalPoint x.magnitude (2 ^ placeBits)) 17 with
  | some n => exact ⟨n, rfl⟩
  | none =>
    have hneighbours := not_readsBack_of_onGrid hgrid rfl rfl
    refine absurd (readsBack_neighbour (Nat.mul_pos hpos (Nat.pow_pos (by decide))) ?_) hneighbours
    exact (Nat.mul_le_mul_right _ (by decide)).trans hfine

/-- The first grid with a hit is found. -/
lemma onGrid_shortestFrom {point : ℤ} {fuel count found : ℕ}
    (hfound : ∃ n, x.onGrid point found = some n) (hle : count ≤ found)
    (hlt : found < count + fuel) :
    x.onGrid point (x.shortestFrom point fuel count).2 =
      some (x.shortestFrom point fuel count).1 := by
  induction fuel generalizing count with
  | zero => omega
  | succ fuel ih =>
    rw [shortestFrom]
    cases hgrid : x.onGrid point count with
    | some n => exact hgrid
    | none =>
      have hne : count ≠ found := by
        rintro rfl
        obtain ⟨n, hn⟩ := hfound
        rw [hgrid] at hn
        cases hn
      exact ih (by omega) (by omega)

/-! ## The text -/

/-- Digits are those without the zeros at their end, and zeros. -/
lemma exists_zeros (ds : List ℕ) : ∃ count, ds = dropTrailingZeros ds ++ List.replicate count 0 := by
  refine ⟨(ds.reverse.takeWhile (· = 0)).length, ?_⟩
  have hzeros : ds.reverse.takeWhile (· = 0) =
      List.replicate (ds.reverse.takeWhile (· = 0)).length 0 := by
    apply List.eq_replicate_of_mem
    intro d hd
    simpa using List.mem_takeWhile_imp hd
  conv_lhs => rw [← ds.reverse_reverse, ← List.takeWhile_append_dropWhile (p := (· = 0))
    (l := ds.reverse), List.reverse_append, hzeros, List.reverse_replicate]
  rfl

/-- A number has the digits that are left without the zeros at its end, and these zeros. -/
lemma exists_tens (n : ℕ) : ∃ count, (Text.toDigits n).length =
      (dropTrailingZeros (Text.toDigits n)).length + count ∧
    n = Text.ofDigits (dropTrailingZeros (Text.toDigits n)) * 10 ^ count := by
  obtain ⟨count, hcount⟩ := exists_zeros (Text.toDigits n)
  refine ⟨count, ?_, ?_⟩
  · conv_lhs => rw [hcount, List.length_append, List.length_replicate]
  · conv_lhs => rw [← Text.ofDigits_toDigits n, hcount, Text.ofDigits_append,
      Text.ofDigits_zeros, List.length_replicate, Nat.add_zero]

/-- An integer that reads back is the double itself, if the double has a bit of less than one. -/
lemma magnitude_of_readsBack {whole : ℕ} (hunit : x.unit < placeBits) (hd : 0 < d)
    (h : x.readsBack (whole * 2 ^ placeBits * d) d = true) :
    x.magnitude = whole * 2 ^ placeBits := by
  obtain ⟨bits, hbits⟩ := Nat.exists_eq_add_of_lt hunit
  obtain ⟨hlow, hhigh⟩ := near_of_readsBack h
  have hpos : 0 < 2 ^ x.unit * d := Nat.mul_pos (Nat.two_pow_pos _) hd
  have hwhole : whole * 2 ^ placeBits = whole * 2 ^ (bits + 1) * 2 ^ x.unit := by
    rw [hbits, Nat.mul_assoc, ← Nat.pow_add]
    congr 2
    omega
  -- in units of the last place both are integers
  have hunits : x.magnitude * d = x.significand * (2 ^ x.unit * d) := Nat.mul_assoc _ _ _
  rw [hwhole, Nat.mul_assoc _ _ d, hunits] at hlow hhigh
  have hle : 2 * x.significand ≤ 2 * (whole * 2 ^ (bits + 1)) + 1 := by
    apply Nat.le_of_mul_le_mul_right _ hpos
    rw [Nat.add_mul, Nat.one_mul, Nat.mul_assoc, Nat.mul_assoc]
    exact hlow
  have hge : 2 * (whole * 2 ^ (bits + 1)) ≤ 2 * x.significand + 1 := by
    apply Nat.le_of_mul_le_mul_right _ hpos
    rw [Nat.add_mul, Nat.one_mul, Nat.mul_assoc, Nat.mul_assoc 2]
    exact hhigh
  rw [hwhole, magnitude, show x.significand = whole * 2 ^ (bits + 1) by omega]

/-- A double with a bit of less than one is an integer if its digits end before the point. -/
lemma dvd_magnitude_of_digits {point : ℤ} {count : ℕ} (hunit : x.unit < placeBits)
    (h : x.readsBack (n * (2 ^ placeBits * 10 ^ (point - count).toNat))
      (10 ^ (-(point - count)).toNat) = true)
    (hdigits : ((dropTrailingZeros (Text.toDigits n)).length : ℤ) ≤
      point + ((Text.toDigits n).length - count)) : 2 ^ placeBits ∣ x.magnitude := by
  obtain ⟨zeros, hlength, hn⟩ := exists_tens n
  obtain ⟨more, hmore⟩ : ∃ more, zeros = more + (-(point - count)).toNat :=
    ⟨zeros - (-(point - count)).toNat, by omega⟩
  have hwhole : n * (2 ^ placeBits * 10 ^ (point - count).toNat) =
      Text.ofDigits (dropTrailingZeros (Text.toDigits n)) * 10 ^ more *
        10 ^ (point - count).toNat * 2 ^ placeBits * 10 ^ (-(point - count)).toNat := by
    conv_lhs => rw [hn, hmore, Nat.pow_add]
    ring
  rw [hwhole] at h
  rw [magnitude_of_readsBack hunit (Nat.pow_pos (by decide)) h]
  exact Nat.dvd_mul_left _ _

/-- Digits are printed with a point unless it comes behind all of them. -/
lemma point_mem_positional {digits : Decimals} (whole : String)
    (h : 0 < digits.point → digits.point.toNat < digits.digits.length) :
    '.' ∈ (positional digits whole).toList := by
  unfold positional
  simp only [List.length_map]
  split
  · simp
  · next hpos =>
    rw [if_neg (Nat.not_le.2 (h (by omega)))]
    simp

/-- The text of a double that is no integer has a point. -/
theorem point_mem_plainText (hfinite : x.isFinite = true) (hfraction : x.isIntegral = false) :
    '.' ∈ x.plainText.toList := by
  have hnot : ¬ 2 ^ placeBits ∣ x.magnitude := by
    intro hdvd
    have hintegral : x.isIntegral = true := by
      rw [isIntegral, hfinite, ← placeBits_eq, Nat.mod_eq_zero_of_dvd hdvd]
      rfl
    rw [hintegral] at hfraction
    cases hfraction
  have hmagnitude : x.magnitude ≠ 0 := by
    intro hzero
    exact hnot (hzero ▸ Nat.dvd_zero _)
  have hunit : x.unit < placeBits := by
    by_contra hge
    exact hnot ((Nat.pow_dvd_pow 2 (Nat.not_lt.1 hge)).mul_left _)
  have hpoint : '.' ∈ (positional x.shortest "").toList := by
    have hfound := onGrid_shortestFrom (onGrid_seventeen hmagnitude)
      (show 1 ≤ 17 by decide) (show 17 < 1 + 17 by decide)
    apply point_mem_positional
    intro hpos
    by_contra hbehind
    refine hnot (dvd_magnitude_of_digits hunit (readsBack_of_onGrid hfound) ?_)
    simp only [shortest, ← placeBits_eq] at hpos hbehind
    omega
  have hexponent : (x.exponentField == 2047) = false := by simpa [isFinite] using hfinite
  unfold plainText
  simp only [isNaN, isInfinite, hexponent, hmagnitude, Bool.false_and, Bool.false_eq_true, if_false]
  rw [String.toList_append]
  exact List.mem_append_right _ hpoint

end TableTail.Binary64
