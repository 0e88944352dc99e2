import Mathlib.Data.List.Forall2
import Mathlib.Tactic.IntervalCases
import TableTail.Proofs.Text.Numerals

/-!
# Texts of fixed width

Numbers that are written with the same number of digits are in order as their texts are, and so are
rows of such numbers with the same characters between them: the first number that differs decides
(`written_lt`).
-/

namespace TableTail.Text

variable {ds es : List Nat} {d e m n width : Nat}

/-- Digits with larger values have larger characters. -/
lemma digitChar_lt (h : d < e) (he : e < 10) : digitChar d < digitChar e := by
  interval_cases e <;> interval_cases d <;> decide

/-- The value of a digit before others. -/
lemma ofDigits_cons (d : Nat) (ds : List Nat) :
    ofDigits (d :: ds) = d * 10 ^ ds.length + ofDigits ds := by
  rw [← List.singleton_append, ofDigits_append]
  simp [ofDigits]

/-- A row of digits has a value below the next power of ten. -/
lemma ofDigits_lt (h : AreDigits ds) : ofDigits ds < 10 ^ ds.length := by
  induction ds with
  | nil => decide
  | cons d rest ih =>
    have hd : d ≤ 9 := Nat.le_of_lt_succ (h d (List.mem_cons_self ..))
    have hrest := ih fun e he => h e (List.mem_cons_of_mem _ he)
    have hfirst : d * 10 ^ rest.length ≤ 9 * 10 ^ rest.length := Nat.mul_le_mul_right _ hd
    rw [ofDigits_cons, List.length_cons, pow_succ]
    omega

/-- Of two rows of as many digits the one with the smaller value has the smaller text, whatever
follows. -/
lemma map_digitChar_append_lt (hds : AreDigits ds) (hes : AreDigits es)
    (hlength : ds.length = es.length) (h : ofDigits ds < ofDigits es) (x y : List Char) :
    ds.map digitChar ++ x < es.map digitChar ++ y := by
  induction ds generalizing es with
  | nil =>
    obtain rfl := List.length_eq_zero_iff.1 hlength.symm
    exact absurd h (lt_irrefl _)
  | cons d rest ih =>
    cases es with
    | nil => cases hlength
    | cons e more =>
      have hrest : AreDigits rest := fun c hc => hds c (List.mem_cons_of_mem _ hc)
      have hmore : AreDigits more := fun c hc => hes c (List.mem_cons_of_mem _ hc)
      have hlengths : rest.length = more.length := Nat.succ.inj hlength
      have hbound := ofDigits_lt hmore
      rw [ofDigits_cons, ofDigits_cons, hlengths] at h
      simp only [List.map_cons, List.cons_append, List.cons_lt_cons_iff]
      rcases Nat.lt_trichotomy d e with hlt | rfl | hgt
      · exact .inl (digitChar_lt hlt (hes e (List.mem_cons_self ..)))
      · exact .inr ⟨rfl, ih hrest hmore hlengths (Nat.lt_of_add_lt_add_left h)⟩
      · -- a larger first digit is worth more than all digits behind the smaller one
        have hfirst : (e + 1) * 10 ^ more.length ≤ d * 10 ^ more.length :=
          Nat.mul_le_mul_right _ hgt
        rw [Nat.succ_mul] at hfirst
        omega

/-- Of two numbers that fit a width the smaller one has the smaller text, whatever follows. -/
lemma padded_append_lt (hpos : 0 < width) (hn : n < 10 ^ width) (h : m < n) (x y : List Char) :
    (padded width m).toList ++ x < (padded width n).toList ++ y := by
  rw [toList_padded, toList_padded]
  apply map_digitChar_append_lt (areDigits_paddedDigits _ _) (areDigits_paddedDigits _ _)
  · rw [length_paddedDigits_of_lt hpos hn, length_paddedDigits_of_lt hpos (h.trans hn)]
  · rwa [ofDigits_paddedDigits, ofDigits_paddedDigits]

/-- Numbers one after the other, each in its width and with its separator behind it. -/
def written : List (Nat × List Char) → List Nat → List Char
  | (width, separator) :: shape, n :: ns =>
    (padded width n).toList ++ (separator ++ written shape ns)
  | _, _ => []

/-- Each of the numbers fits its width. -/
def Fits (shape : List (Nat × List Char)) (ns : List Nat) : Prop :=
  List.Forall₂ (fun field n => 0 < field.1 ∧ n < 10 ^ field.1) shape ns

/-- Numbers that fit are written in the order in which they stand. -/
theorem written_lt {shape : List (Nat × List Char)} {ms ns : List Nat} (hms : Fits shape ms)
    (hns : Fits shape ns) (h : ms < ns) : written shape ms < written shape ns := by
  induction hms generalizing ns with
  | nil =>
    cases hns
    exact absurd h (List.lt_irrefl _)
  | cons hm _ ih =>
    obtain ⟨hpos, -⟩ := hm
    cases hns with
    | cons hn hns =>
      rw [written, written]
      rcases List.cons_lt_cons_iff.1 h with hlt | ⟨rfl, hrest⟩
      · exact padded_append_lt hpos hn.2 hlt _ _
      · exact List.append_left_lt (List.append_left_lt (ih hns hrest))

/-- Texts compare as their characters do. -/
lemma compare_of_toList_lt {s t : String} (h : s.toList < t.toList) : compare s t = .lt := by
  change compareOfLessAndEq s t = .lt
  rw [compareOfLessAndEq, if_pos (String.lt_iff.2 h)]

end TableTail.Text
