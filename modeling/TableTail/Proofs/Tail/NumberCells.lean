import TableTail.Proofs.Number.DecimalText
import TableTail.Proofs.Number.ExactDecimals
import TableTail.Proofs.Number.ShortestText
import TableTail.Proofs.Tail.MarkText

/-!
# Numbers in cells

A column of numbers is answered with integers, decimals and doubles, whatever the kind of its marks.
The mark that is read from an integer or a decimal has its number. A double is held within the
64-bit range when it becomes an integer, and loses digits when it becomes a decimal: which numbers
are read exactly is told by `Mark.exists_ofCell?_number_iff`, together with where the others come
from.
-/

namespace TableTail

/-- The number in a cell, if it holds a finite one. -/
def Sql.Cell.number? : Sql.Cell → Option ℚ
  | .integer i => some i.toInt
  | .decimal d => some d.value
  | .real x => if x.isFinite then some x.value else none
  | _ => none

/-- The number that a mark stands for. -/
def Mark.number? : Mark → Option ℚ
  | .integer i => some i.toInt
  | .decimal d => some d.value
  | _ => none

/-- The numbers in a cell that are read exactly: as integers those of the 64-bit range, as decimals
all but those of doubles that lose digits. -/
def Sql.Cell.ReadExactly (c : Sql.Cell) (q : ℚ) : MarkKind → Prop
  | .integer => ∃ n : ℤ, q = n ∧ -2 ^ 63 ≤ n ∧ n < 2 ^ 63
  | .decimal => (∃ x, c = .real x) → Decimal.Keeps q
  | _ => False

namespace Mark

variable {c : Sql.Cell} {q : ℚ} {m : Mark} {n : ℤ} {x : Binary64} {d : Decimal}

/-! ## Marks of integers -/

/-- A text with a point is not read as an integer. -/
lemma ofText?_integer_of_point {text : String} (h : c.text? = some text)
    (hpoint : '.' ∈ text.toList) : ofText? .integer c = none := by
  obtain ⟨e, he⟩ := Text.readInt64_eq_error (Text.mem_trim hpoint (by decide)) (by decide)
    (by decide) (by decide)
  rw [ofText?, h, Option.bind_some, read]
  simp only [he]
  rfl

/-- A double that is no integer has no mark of integers. -/
lemma ofCell?_integer_of_fraction (hfinite : x.isFinite = true) (h : ∀ n : ℤ, x.value ≠ n) :
    ofCell? .integer (.real x) = none := by
  have hfraction : x.isIntegral = false := by
    rw [← Bool.not_eq_true, Binary64.isIntegral_iff hfinite]
    rintro ⟨n, hn⟩
    exact h n hn
  rw [ofCell?, hfraction, if_neg Bool.false_ne_true]
  exact ofText?_integer_of_point rfl (Binary64.point_mem_plainText hfinite hfraction)

/-- A double that is an integer has this integer for a mark, held within the 64-bit range. -/
lemma ofCell?_integer_of_double (hfinite : x.isFinite = true) (h : x.value = n) :
    ofCell? .integer (.real x) =
      some (.integer (Int64.ofInt (max (-2 ^ 63) (min n (2 ^ 63 - 1))))) := by
  rw [ofCell?, if_pos ((Binary64.isIntegral_iff hfinite).2 ⟨n, h⟩),
    Binary64.toInt64_of_value hfinite h]

/-- A decimal that is an integer of the 64-bit range has this integer for a mark, and no other
decimal has a mark of integers. -/
lemma ofCell?_integer_decimal_iff : ofCell? .integer (.decimal d) = some m ↔
    ∃ n : ℤ, d.value = n ∧ -2 ^ 63 ≤ n ∧ n < 2 ^ 63 ∧ m = .integer (Int64.ofInt n) := by
  rw [ofCell?]
  split
  · next hintegral =>
    obtain ⟨n, hn⟩ := Decimal.isIntegral_iff.1 hintegral
    have hquotient : d.signed / (10 ^ d.scale : ℕ) = n := by
      rw [Decimal.signed_of_value hn]
      exact Int.mul_ediv_cancel _ (Int.natCast_ne_zero.2 (Nat.pow_pos (by decide)).ne')
    rw [integerOfDecimal?, hquotient]
    constructor
    · intro h
      obtain ⟨i, hi, rfl⟩ := Option.map_eq_some_iff.1 h
      split at hi
      · next hrange =>
        obtain rfl := Option.some.inj hi
        exact ⟨n, hn, hrange.1, hrange.2, rfl⟩
      · cases hi
    · rintro ⟨n', hn', hmin, hmax, rfl⟩
      obtain rfl : n = n' := Int.cast_injective (hn.symm.trans hn')
      rw [if_pos ⟨hmin, hmax⟩]
      rfl
  · next hnot =>
    have hfraction : d.isIntegral = false := by simpa using hnot
    rw [ofText?_integer_of_point rfl (Decimal.point_mem_text hfraction)]
    constructor
    · intro h
      cases h
    · rintro ⟨n, hn, -⟩
      exact absurd (Decimal.isIntegral_iff.2 ⟨n, hn⟩) hnot

/-- An integer of the 64-bit range is read from each cell that holds it. -/
lemma ofCell?_integer_of_range (hnumber : c.number? = some (n : ℚ)) (hmin : -2 ^ 63 ≤ n)
    (hmax : n < 2 ^ 63) : ofCell? .integer c = some (.integer (Int64.ofInt n)) := by
  cases c with
  | integer i =>
    obtain rfl : i.toInt = n := Int.cast_injective (Option.some.inj hnumber)
    rw [ofCell?, Int64.ofInt_toInt]
  | decimal d => exact ofCell?_integer_decimal_iff.2 ⟨n, Option.some.inj hnumber, hmin, hmax, rfl⟩
  | real x =>
    obtain ⟨hfinite, hvalue⟩ := Option.ite_none_right_eq_some.1 hnumber
    rw [ofCell?_integer_of_double hfinite (Option.some.inj hvalue)]
    congr 3
    omega
  | _ => cases hnumber

/-- A mark of integers that does not have the number of its cell is at a limit of the 64-bit range,
and the cell holds a double past this limit. -/
lemma ofCell?_integer_inexact (hnumber : c.number? = some q) (hm : ofCell? .integer c = some m)
    (hne : m.number? ≠ some q) : ∃ x, c = .real x ∧
      (2 ^ 63 ≤ q ∧ m = .integer Int64.maxValue ∨ q < -2 ^ 63 ∧ m = .integer Int64.minValue) := by
  have hout : ∀ n : ℤ, q = n → ¬ (-2 ^ 63 ≤ n ∧ n < 2 ^ 63) := by
    rintro n rfl ⟨hmin, hmax⟩
    rw [ofCell?_integer_of_range hnumber hmin hmax] at hm
    obtain rfl := Option.some.inj hm
    apply hne
    rw [number?, Int64.toInt_ofInt_of_le hmin hmax]
  cases c with
  | integer i => exact absurd ⟨i.le_toInt, i.toInt_lt⟩ (hout _ (Option.some.inj hnumber).symm)
  | decimal d =>
    obtain ⟨n, hn, hmin, hmax, -⟩ := ofCell?_integer_decimal_iff.1 hm
    exact absurd ⟨hmin, hmax⟩ (hout n ((Option.some.inj hnumber).symm.trans hn))
  | real x =>
    obtain ⟨hfinite, hvalue⟩ := Option.ite_none_right_eq_some.1 hnumber
    obtain rfl := Option.some.inj hvalue
    refine ⟨x, rfl, ?_⟩
    by_cases hinteger : ∃ n : ℤ, x.value = n
    · obtain ⟨n, hn⟩ := hinteger
      rw [ofCell?_integer_of_double hfinite hn] at hm
      obtain rfl := Option.some.inj hm
      rw [hn]
      rcases lt_or_ge n (2 ^ 63) with hlt | hge
      · have hbelow : n < -2 ^ 63 := by
          by_contra hmin
          exact hout n hn ⟨not_lt.1 hmin, hlt⟩
        refine .inr ⟨by exact_mod_cast hbelow, ?_⟩
        rw [show max (-2 ^ 63) (min n (2 ^ 63 - 1)) = (-2 ^ 63 : ℤ) by omega]
        rfl
      · refine .inl ⟨by exact_mod_cast hge, ?_⟩
        rw [show max (-2 ^ 63) (min n (2 ^ 63 - 1)) = (2 ^ 63 - 1 : ℤ) by omega]
        rfl
    · rw [ofCell?_integer_of_fraction hfinite (not_exists.1 hinteger)] at hm
      cases hm
  | _ => cases hnumber

/-! ## Exactly -/

/-- The integers of the 64-bit range are those that are read exactly as marks of integers. -/
lemma exists_ofCell?_integer_iff (hnumber : c.number? = some q) :
    (∃ m, ofCell? .integer c = some m ∧ m.number? = some q) ↔ c.ReadExactly q .integer := by
  constructor
  · rintro ⟨m, hm, hq⟩
    cases m with
    | integer i => exact ⟨i.toInt, (Option.some.inj hq).symm, i.le_toInt, i.toInt_lt⟩
    | _ => cases kind_of_ofCell? hm
  · rintro ⟨n, rfl, hmin, hmax⟩
    refine ⟨_, ofCell?_integer_of_range hnumber hmin hmax, ?_⟩
    rw [number?, Int64.toInt_ofInt_of_le hmin hmax]

/-- Integers and decimals, and the doubles that lose no digits, are those that are read exactly as
marks of decimals. -/
lemma exists_ofCell?_decimal_iff (hnumber : c.number? = some q) :
    (∃ m, ofCell? .decimal c = some m ∧ m.number? = some q) ↔ c.ReadExactly q .decimal := by
  cases c with
  | integer i =>
    obtain rfl := Option.some.inj hnumber
    refine iff_of_true ⟨_, rfl, ?_⟩ fun h => ?_
    · rw [number?, Decimal.value_ofInt64]
    · obtain ⟨x, hx⟩ := h
      cases hx
  | decimal d =>
    refine iff_of_true ⟨_, rfl, hnumber⟩ fun h => ?_
    obtain ⟨x, hx⟩ := h
    cases hx
  | real x =>
    obtain ⟨hfinite, hvalue⟩ := Option.ite_none_right_eq_some.1 hnumber
    obtain rfl := Option.some.inj hvalue
    have hkeeps := Decimal.exists_ofBinary64?_iff hfinite
    constructor
    · rintro ⟨m, hm, hq⟩ -
      obtain ⟨d, hd, rfl⟩ := Option.map_eq_some_iff.1 hm
      exact hkeeps.1 ⟨d, hd, Option.some.inj hq⟩
    · intro h
      obtain ⟨d, hd, hvalue⟩ := hkeeps.2 (h ⟨x, rfl⟩)
      exact ⟨.decimal d, by rw [ofCell?, hd, Option.map_some], by rw [number?, hvalue]⟩
  | _ => cases hnumber

/-- The numbers that are read exactly as marks of integers and of decimals. A mark that is read in
another way comes from a double: one past a limit of the 64-bit range is held at this limit. -/
theorem exists_ofCell?_number_iff {kind : MarkKind} (hkind : kind = .integer ∨ kind = .decimal)
    (hnumber : c.number? = some q) :
    ((∃ m, ofCell? kind c = some m ∧ m.number? = some q) ↔ c.ReadExactly q kind) ∧
      ∀ m, ofCell? kind c = some m → m.number? ≠ some q → ∃ x, c = .real x ∧
        (kind = .integer → 2 ^ 63 ≤ q ∧ m = .integer Int64.maxValue ∨
          q < -2 ^ 63 ∧ m = .integer Int64.minValue) := by
  rcases hkind with rfl | rfl
  · refine ⟨exists_ofCell?_integer_iff hnumber, fun m hm hne => ?_⟩
    obtain ⟨x, hx, hlimit⟩ := ofCell?_integer_inexact hnumber hm hne
    exact ⟨x, hx, fun _ => hlimit⟩
  · have hexact := exists_ofCell?_decimal_iff hnumber
    refine ⟨hexact, fun m hm hne => ?_⟩
    by_cases hreal : ∃ x, c = .real x
    · obtain ⟨x, hx⟩ := hreal
      exact ⟨x, hx, fun h => nomatch h⟩
    · obtain ⟨m', hm', hq⟩ := hexact.2 fun h => absurd h hreal
      rw [hm'] at hm
      exact absurd (Option.some.inj hm ▸ hq) hne

end Mark

namespace Journal

/-- The number halfway between two integers of sixteen digits. -/
def halfway : Binary64 := ⟨UInt64.ofNat (1074 * 2 ^ 52 + 1)⟩

/-- It is not read exactly as a mark of decimals: the mark is the integer above. -/
theorem halfway_read_above :
    (Sql.Cell.real halfway).number? = some (2251799813685248 + 1 / 2) ∧
      Mark.ofCell? .decimal (.real halfway) =
        some (.decimal ⟨false, 2251799813685249, 0, by decide, by decide⟩) ∧
      ¬ (Sql.Cell.real halfway).ReadExactly (2251799813685248 + 1 / 2) .decimal := by
  have hnumber : (Sql.Cell.real halfway).number? = some (2251799813685248 + 1 / 2) := by
    decide +kernel
  have hread : Mark.ofCell? .decimal (.real halfway) =
      some (.decimal ⟨false, 2251799813685249, 0, by decide, by decide⟩) := by decide +kernel
  obtain ⟨hexact, -⟩ := Mark.exists_ofCell?_number_iff (.inr rfl) hnumber
  refine ⟨hnumber, hread, ?_⟩
  intro hkept
  obtain ⟨m, hm, hq⟩ := hexact.2 hkept
  rw [hread] at hm
  obtain rfl := Option.some.inj hm
  exact absurd hq (by decide +kernel)

end Journal

end TableTail
