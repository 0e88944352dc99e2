import TableTail.Number.DecimalReading
import TableTail.Proofs.Text.Numerals

/-!
# Decimals and their texts

The text of a decimal is read as the normalized decimal (`read_text`), which is the same number
(`compareValue_normalize`). It has a point unless the decimal is an integer (`point_mem_text`).
-/

namespace TableTail.Decimal

/-- Digits are read one after the other, as long as they fit. -/
lemma readRest_map_digitChar {ds : List Nat} (h : Text.AreDigits ds) (negative point has : Bool)
    {m s : Nat} (hfit : ds.foldl (fun n d => 10 * n + d) m < 2 ^ 96)
    (hplaces : point = true → s + ds.length ≤ 28) (rest : List Char) :
    readRest negative point has m s (ds.map Text.digitChar ++ rest) =
      readRest negative point (has || !ds.isEmpty) (ds.foldl (fun n d => 10 * n + d) m)
        (if point then s + ds.length else s) rest := by
  induction ds generalizing has m s with
  | nil => simp
  | cons d more ih =>
    have hd : Text.digit? (Text.digitChar d) = some d := Text.digit?_digitChar (h d (by simp))
    have hroom : ¬ (point = true ∧ 28 ≤ s) := by
      rintro ⟨hpoint, hs⟩
      have := hplaces hpoint
      rw [List.length_cons] at this
      omega
    have hhere : 10 * m + d < 2 ^ 96 := by
      rw [List.foldl_cons, Text.foldl_digits] at hfit
      have hpos : 0 < 10 ^ more.length := Nat.pos_of_ne_zero (by simp)
      have := Nat.le_mul_of_pos_right (10 * m + d) hpos
      omega
    rw [List.map_cons, List.cons_append, readRest, if_neg hroom, hd]
    simp only [hhere, if_true]
    rw [ih (fun e he => h e (by simp [he])) true hfit]
    · cases point with
      | false => simp
      | true => simp [Nat.add_assoc, Nat.add_comm 1]
    · intro hpoint
      have := hplaces hpoint
      rw [List.length_cons] at this
      rw [if_pos hpoint]
      omega

/-- The parts of a decimal make it up. -/
lemma finish_self (d : Decimal) : finish d.negative d.mantissa d.scale = .ok d := by
  rw [finish, ofParts?, dif_pos ⟨d.mantissa_lt, d.scale_le⟩]

/-- The digits of a decimal are read as its mantissa and places. -/
lemma readRest_digitsText (d : Decimal) (negative : Bool) :
    readRest negative false false 0 0 d.digitsText.toList =
      finish negative d.mantissa d.scale := by
  have hdigits := Text.areDigits_toDigits (d.mantissa / 10 ^ d.scale)
  have hwhole : (Text.toDigits (d.mantissa / 10 ^ d.scale)).foldl (fun n d => 10 * n + d) 0 =
      d.mantissa / 10 ^ d.scale := Text.ofDigits_toDigits _
  have hle : d.mantissa / 10 ^ d.scale ≤ d.mantissa := Nat.div_le_self _ _
  have hfit := d.mantissa_lt
  have hread := fun rest => readRest_map_digitChar hdigits negative false false
    (m := 0) (s := 0) (by rw [hwhole]; omega) (by simp) rest
  have hsome : (!(Text.toDigits (d.mantissa / 10 ^ d.scale)).isEmpty) = true := by
    simp [Text.toDigits_ne_nil]
  rw [hwhole, hsome] at hread
  by_cases hscale : d.scale = 0
  · have hzero := hread []
    rw [hscale, pow_zero, Nat.div_one, List.append_nil] at hzero
    rw [digitsText, if_pos hscale, Text.toList_natText, hzero, hscale]
    rfl
  · have hpos : 0 < d.scale := Nat.pos_of_ne_zero hscale
    have hlt : d.mantissa % 10 ^ d.scale < 10 ^ d.scale := Nat.mod_lt _ (by simp)
    have hlength := Text.length_paddedDigits_of_lt hpos hlt
    have hall : (Text.paddedDigits d.scale (d.mantissa % 10 ^ d.scale)).foldl
        (fun n d => 10 * n + d) (d.mantissa / 10 ^ d.scale) = d.mantissa := by
      rw [Text.foldl_digits, Text.ofDigits_paddedDigits, hlength, Nat.div_add_mod']
    have hplaces :=
      readRest_map_digitChar (Text.areDigits_paddedDigits d.scale _) negative true true
      (s := 0) (by rw [hall]; exact hfit) (by rw [hlength]; simpa using d.scale_le) []
    rw [hall, hlength, List.append_nil] at hplaces
    have hpoint : ∀ m rest, readRest negative false true m 0 ('.' :: rest) =
        readRest negative true true m 0 rest := fun _ _ => rfl
    rw [digitsText, if_neg hscale, String.toList_append, String.toList_append, Text.toList_natText,
      Text.toList_padded, List.append_assoc, hread]
    simp only [Bool.or_true, Bool.false_eq_true, if_false] at hplaces ⊢
    rw [show ".".toList = ['.'] from rfl, List.singleton_append, hpoint, hplaces]
    simp [readRest]

/-- The text of digits begins with a digit. -/
lemma digitsText_cases (d : Decimal) :
    ∃ e rest, e < 10 ∧ d.digitsText.toList = Text.digitChar e :: rest := by
  have hfirst : ∀ n (rest : List Char), ∃ e more, e < 10 ∧
      (Text.toDigits n).map Text.digitChar ++ rest = Text.digitChar e :: more := by
    intro n rest
    cases hds : Text.toDigits n with
    | nil => exact absurd hds (Text.toDigits_ne_nil n)
    | cons e more =>
      exact ⟨e, _, Text.areDigits_toDigits n e (by simp [hds]), rfl⟩
  unfold digitsText
  split
  · obtain ⟨e, more, he, htext⟩ := hfirst d.mantissa []
    rw [List.append_nil] at htext
    exact ⟨e, more, he, by rw [Text.toList_natText, htext]⟩
  · rw [String.toList_append, String.toList_append, Text.toList_natText, List.append_assoc]
    exact hfirst _ _

/-- The text of digits ends in a digit. -/
lemma digitsText_ends (d : Decimal) :
    ∃ front ds, d.digitsText.toList = front ++ ds.map Text.digitChar ∧ Text.AreDigits ds ∧
      ds ≠ [] := by
  unfold digitsText
  split
  · exact ⟨[], _, Text.toList_natText _, Text.areDigits_toDigits _, Text.toDigits_ne_nil _⟩
  · rw [String.toList_append, Text.toList_padded]
    exact ⟨_, _, rfl, Text.areDigits_paddedDigits _ _, Text.paddedDigits_ne_nil _ _⟩

/-- The text of a decimal that is no integer has a point. -/
lemma point_mem_text {d : Decimal} (h : d.isIntegral = false) : '.' ∈ d.text.toList := by
  have hscale : d.normalize.scale ≠ 0 := by
    intro hzero
    have hintegral : d.mantissa % 10 ^ d.scale = 0 := by
      unfold normalize at hzero
      split at hzero
      · next hmantissa => rw [hmantissa, Nat.zero_mod]
      · have hvalue := strip_value d.mantissa d.scale
        simp only at hzero
        rw [hzero, Nat.pow_zero, Nat.mul_one] at hvalue
        rw [← hvalue, Nat.mul_mod_left]
    rw [isIntegral, hintegral] at h
    cases h
  rw [text, String.toList_append, digitsText, if_neg hscale]
  simp

/-- The text of a decimal denotes the normalized decimal. -/
theorem read_text (d : Decimal) : read d.text.toList = .ok d.normalize := by
  have hplain : readPlain d.text.toList = .ok d.normalize := by
    have hdigits := readRest_digitsText d.normalize d.normalize.negative
    rw [finish_self] at hdigits
    obtain ⟨e, rest, he, htext⟩ := digitsText_cases d.normalize
    rw [text, String.toList_append]
    cases hneg : d.normalize.negative with
    | true =>
      rw [hneg] at hdigits
      simp only [if_true]
      exact hdigits
    | false =>
      have hplus : Text.digitChar e ≠ '+' := Text.digitChar_ne he (by decide)
      have hminus : Text.digitChar e ≠ '-' := Text.digitChar_ne he (by decide)
      rw [hneg, htext] at hdigits
      simp only [Bool.false_eq_true, if_false, htext, String.toList_empty, List.nil_append]
      rw [readPlain, hdigits]
      all_goals simp [hplus, hminus]
  rw [read, hplain]

/-- The text of a decimal has no blank at either end. -/
lemma trimmed_text (d : Decimal) : Text.Trimmed d.text.toList := by
  have hsign : ∀ c ∈ (if d.normalize.negative then "-" else "").toList.head?,
      Text.isBlank c = false := by
    intro c hc
    cases hneg : d.normalize.negative with
    | true =>
      simp only [hneg, if_true] at hc
      obtain rfl : '-' = c := Option.some.inj hc
      rfl
    | false => simp [hneg] at hc
  obtain ⟨e, rest, he, htext⟩ := digitsText_cases d.normalize
  obtain ⟨front, ds, hsplit, hds, hne⟩ := digitsText_ends d.normalize
  rw [text, String.toList_append, hsplit, ← List.append_assoc]
  refine Text.trimmed_append_digits (fun c hc => ?_) hds hne
  rw [List.head?_append] at hc
  cases hhead : (if d.normalize.negative then "-" else "").toList.head? with
  | some first =>
    rw [hhead, Option.some_or] at hc
    exact hsign c (hhead ▸ hc)
  | none =>
    rw [hhead, Option.none_or] at hc
    cases front with
    | nil => cases hc
    | cons first front =>
      rw [htext, List.cons_append, List.cons.injEq] at hsplit
      obtain rfl := Option.some.inj hc
      rw [← hsplit.1]
      exact Text.isBlank_digitChar he

/-- A decimal and the normalized one are the same number. -/
theorem compareValue_normalize (d : Decimal) : d.normalize.compareValue d = .eq := by
  rw [compareValue, compare_eq_iff_eq]
  unfold normalize
  split
  · next hzero => simp [signed, zero, hzero]
  · have hvalue : ((strip d.mantissa d.scale).1 : Int) * 10 ^ d.scale =
        d.mantissa * 10 ^ (strip d.mantissa d.scale).2 := by
      exact_mod_cast strip_value d.mantissa d.scale
    simp only [signed]
    split
    · rw [neg_mul, neg_mul, hvalue]
    · exact hvalue

end TableTail.Decimal
