import Mathlib.Algebra.Order.Ring.Int
import Mathlib.Tactic.Positivity
import TableTail.Stored.Value

/-!
# The order of stored values

Stored values are compared by storage class first, integers and reals together. The comparison is
a total preorder (`Std.TransCmp`), so what is sorted by it ascends.
-/

namespace TableTail.Stored

/-- A number in units of `2 ^ -1074`. -/
def numberKey : Stored → Int
  | integer i => i.toInt * 2 ^ 1074
  | real x => x.orderKey
  | _ => 0

/-- A text. -/
def textKey : Stored → String
  | text s => s
  | _ => ""

/-- A blob. -/
def blobKey : Stored → List UInt8
  | blob bs => bs
  | _ => []

/-- The order by class, and within a class by the value. -/
def compareKeys : Stored → Stored → Ordering :=
  compareLex (compareOn rank)
    (compareLex (compareOn numberKey) (compareLex (compareOn textKey) (compareOn blobKey)))

/-- Integers are in the order of their multiples. -/
lemma compare_integers (a b : Int) : compare a b = compare (a * 2 ^ 1074) (b * 2 ^ 1074) := by
  have hpos : (0 : Int) < 2 ^ 1074 := by positivity
  rcases lt_trichotomy a b with hlt | rfl | hgt
  · rw [Std.compare_eq_lt.2 hlt, Std.compare_eq_lt.2 (mul_lt_mul_of_pos_right hlt hpos)]
  · rw [Std.compare_self, Std.compare_self]
  · rw [Std.compare_eq_gt.2 hgt, Std.compare_eq_gt.2 (mul_lt_mul_of_pos_right hgt hpos)]

/-- Values of one class are in the order of its keys. -/
lemma compareKeys_of_rank (a b : Stored) (h : a.rank = b.rank) :
    compareKeys a b = (compare a.numberKey b.numberKey).then
      ((compare a.textKey b.textKey).then (compare a.blobKey b.blobKey)) := by
  rw [compareKeys, compareLex, compareOn, h, Std.compare_self]
  rfl

/-- Stored values are compared by their keys. -/
lemma compareStored_eq : compareStored = compareKeys := by
  funext a b
  have hnumber : ∀ x y : Stored, x.rank = 1 → y.rank = 1 →
      compareKeys x y = compare x.numberKey y.numberKey := by
    intro x y hx hy
    have hrest : (compare x.textKey y.textKey).then (compare x.blobKey y.blobKey) = .eq := by
      cases x <;> cases y <;> cases hx <;> cases hy <;>
        simp [textKey, blobKey, Std.compare_self]
    rw [compareKeys_of_rank x y (hx.trans hy.symm), hrest, Ordering.then_eq]
  cases a <;> cases b
  case integer.integer a b =>
    rw [hnumber _ _ rfl rfl]
    exact compare_integers _ _
  case integer.real a b => exact (hnumber (integer a) (real b) rfl rfl).symm
  case real.integer a b =>
    rw [hnumber _ _ rfl rfl]
    exact Std.OrientedOrd.eq_swap.symm
  case real.real a b => exact (hnumber (real a) (real b) rfl rfl).symm
  case null.null =>
    rw [compareKeys_of_rank null null rfl]
    simp [compareStored, Std.compare_self]
  case text.text a b =>
    rw [compareKeys_of_rank (text a) (text b) rfl]
    simp [compareStored, numberKey, textKey, blobKey, Std.compare_self]
  case blob.blob a b =>
    rw [compareKeys_of_rank (blob a) (blob b) rfl]
    simp [compareStored, numberKey, textKey, blobKey, Std.compare_self]
  all_goals rfl

instance : Std.TransCmp compareStored := by
  rw [compareStored_eq]
  exact inferInstanceAs (Std.TransCmp (compareLex (compareOn rank)
    (compareLex (compareOn numberKey) (compareLex (compareOn textKey) (compareOn blobKey)))))

/-- A value does not come behind another one. -/
def NotAbove (a b : Stored) : Prop := (a.compareStored b).isLE = true

/-- A value does not come behind itself. -/
lemma notAbove_refl (a : Stored) : a.NotAbove a := by
  have hself : a.compareStored a = .eq := Std.ReflCmp.compare_self
  rw [NotAbove, hself]
  rfl

/-- Sorted pairs ascend by their first parts. -/
lemma pairwise_mergeSort {α : Type} (l : List (Stored × α)) :
    (l.mergeSort fun a b => a.1.compareStored b.1 != .gt).Pairwise
      fun a b => a.1.NotAbove b.1 := by
  have hle : ∀ o : Ordering, (o != .gt) = o.isLE := by decide
  simp only [hle]
  refine List.pairwise_mergeSort ?_ ?_ l
  · intro a b c hab hbc
    exact Std.TransCmp.isLE_trans hab hbc
  · intro a b
    have hswap : b.1.compareStored a.1 = (a.1.compareStored b.1).swap := Std.OrientedCmp.eq_swap
    rw [hswap]
    cases a.1.compareStored b.1 <;> rfl

end TableTail.Stored
