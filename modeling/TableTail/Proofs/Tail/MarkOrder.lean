import Mathlib.Tactic.Positivity
import Mathlib.Tactic.Ring
import TableTail.Tail.Mark

/-!
# The order of marks

Marks are compared across their kinds, decimals by their values whatever their places. The
comparison is a total preorder (`Std.TransCmp`), which is what positions in a table rest on, and two
marks at the same place are equal except for the places of decimals (`Mark.eq_of_same`).
-/

namespace TableTail

namespace Decimal

/-- The power of ten by which a decimal is scaled is positive. -/
theorem scale_pow_pos (d : Decimal) : (0 : ℤ) < 10 ^ d.scale := by positivity

/-- A decimal is not above another one exactly when the cross products are in that order. -/
theorem compareValue_isLE_iff (a b : Decimal) :
    (a.compareValue b).isLE = true ↔ a.signed * 10 ^ b.scale ≤ b.signed * 10 ^ a.scale := by
  rw [compareValue, Std.isLE_compare]

instance : Std.OrientedCmp compareValue where
  eq_swap := Std.OrientedOrd.eq_swap

/-- Comparing by value is transitive: the middle scale can be cancelled. -/
theorem compareValue_isLE_trans {a b c : Decimal} (hab : (a.compareValue b).isLE)
    (hbc : (b.compareValue c).isLE) : (a.compareValue c).isLE := by
  rw [compareValue_isLE_iff] at hab hbc ⊢
  have hA := a.scale_pow_pos
  have hB := b.scale_pow_pos
  have hC := c.scale_pow_pos
  refine le_of_mul_le_mul_right ?_ hB
  calc a.signed * 10 ^ c.scale * 10 ^ b.scale
      = a.signed * 10 ^ b.scale * 10 ^ c.scale := by ring
    _ ≤ b.signed * 10 ^ a.scale * 10 ^ c.scale := mul_le_mul_of_nonneg_right hab hC.le
    _ = b.signed * 10 ^ c.scale * 10 ^ a.scale := by ring
    _ ≤ c.signed * 10 ^ b.scale * 10 ^ a.scale := mul_le_mul_of_nonneg_right hbc hA.le
    _ = c.signed * 10 ^ a.scale * 10 ^ b.scale := by ring

end Decimal

namespace Date

instance : Std.TransCmp compareDay :=
  inferInstanceAs (Std.TransCmp (compareLex (compareOn Date.year)
    (compareLex (compareOn Date.month) (compareOn Date.day))))

/-- Days at the same place in the calendar are the same day. -/
theorem eq_of_compareDay {a b : Date} (h : a.compareDay b = .eq) : a = b := by
  simp only [compareDay, Ordering.then_eq_eq, Std.compare_eq_iff_eq] at h
  cases a
  cases b
  simp_all

end Date

namespace Timestamp

instance : Std.TransCmp compareMoment :=
  have : Std.TransOrd Date := inferInstanceAs (Std.TransCmp Date.compareDay)
  inferInstanceAs (Std.TransCmp (compareLex (compareOn Timestamp.date)
    (compareLex (compareOn Timestamp.second) (compareOn Timestamp.nano))))

/-- Moments at the same place in time are the same moment. -/
theorem eq_of_compareMoment {a b : Timestamp} (h : a.compareMoment b = .eq) : a = b := by
  simp only [compareMoment, Ordering.then_eq_eq, Std.compare_eq_iff_eq] at h
  have hdate : a.date = b.date := Date.eq_of_compareDay h.1
  cases a
  cases b
  simp_all

end Timestamp

namespace Mark

/-- Comparing the other way round gives the opposite result. -/
theorem compareMark_swap (a b : Mark) : a.compareMark b = (b.compareMark a).swap := by
  cases a <;> cases b <;>
    first
    | exact @Std.OrientedCmp.eq_swap _ Decimal.compareValue _ _ _
    | exact @Std.OrientedCmp.eq_swap _ Timestamp.compareMoment _ _ _
    | exact Std.OrientedOrd.eq_swap

instance : Std.OrientedCmp compareMark where
  eq_swap := compareMark_swap _ _

/-- A mark that is not above another one is not of a later kind. -/
theorem rank_le_of_isLE {a b : Mark} (h : (a.compareMark b).isLE) : a.rank ≤ b.rank := by
  cases a <;> cases b <;>
    first
    | exact Nat.le_refl _
    | exact Std.isLE_compare.1 h

/-- Within one kind the order of marks is the order of their values, and across kinds that of the
kinds; both are transitive. -/
theorem compareMark_isLE_trans {a b c : Mark} (hab : (a.compareMark b).isLE)
    (hbc : (b.compareMark c).isLE) : (a.compareMark c).isLE := by
  have hab' : a.rank ≤ b.rank := rank_le_of_isLE hab
  have hbc' : b.rank ≤ c.rank := rank_le_of_isLE hbc
  have hkinds : (compare a.rank c.rank).isLE := Std.isLE_compare.2 (hab'.trans hbc')
  -- when the outer kinds agree, the middle mark is of that kind too
  cases a <;> cases c <;> try exact hkinds
  all_goals cases b <;> simp only [rank] at hab' hbc' <;> try omega
  case integer.integer.integer => exact Std.TransOrd.isLE_trans hab hbc
  case decimal.decimal.decimal => exact Decimal.compareValue_isLE_trans hab hbc
  case text.text.text => exact Std.TransOrd.isLE_trans hab hbc
  case timestamp.timestamp.timestamp =>
    exact @Std.TransCmp.isLE_trans _ Timestamp.compareMoment _ _ _ _ hab hbc

instance : Std.TransCmp compareMark where
  isLE_trans := compareMark_isLE_trans

/-- A mark is neither before nor behind itself. -/
@[simp] theorem compareMark_self (a : Mark) : a.compareMark a = .eq :=
  Std.ReflCmp.compare_self

/-- A mark is at its own place. -/
@[simp] theorem same_self (a : Mark) : a.same a = true := by
  simp [same]

/-- Being at the same place, as the result of a comparison. -/
theorem same_iff {a b : Mark} : a.same b = true ↔ a.compareMark b = .eq := by
  simp [same]

/-- Two marks at the same place are one mark, unless they are decimals of one value. -/
theorem eq_of_same {a b : Mark} (hkind : a.kind ≠ .decimal) (h : a.same b = true) : a = b := by
  rw [same_iff] at h
  have hle : a.rank ≤ b.rank := rank_le_of_isLE (by rw [h]; rfl)
  have hge : b.rank ≤ a.rank := rank_le_of_isLE (by rw [compareMark_swap, h]; rfl)
  cases a <;> cases b <;> simp only [rank] at hle hge <;> try omega
  case integer.integer i j =>
    have hvalue : i.toInt = j.toInt := Std.compare_eq_iff_eq.1 h
    rw [Int64.toInt_inj.1 hvalue]
  case decimal.decimal => exact absurd rfl hkind
  case text.text s t => rw [Std.compare_eq_iff_eq.1 h]
  case timestamp.timestamp => rw [Timestamp.eq_of_compareMoment h]

end Mark

end TableTail
