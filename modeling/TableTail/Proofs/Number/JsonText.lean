import TableTail.Proofs.Number.ShortestText

/-!
# Doubles in documents

A double is written in a document as a numeral with places or an exponent
(`Binary64.exists_numeral`), because its shortest digits begin with one that is not zero
(`Binary64.shortest_digits`).
-/

namespace TableTail

/-- A numeral without a sign and with places or an exponent, whose digits before the point have no
leading zeros. -/
structure RealNumeral where
  whole : List ℕ
  places : List ℕ
  exponent : Option ℤ
  whole_digits : Text.AreDigits whole
  whole_ne_nil : whole ≠ []
  whole_head : ∀ d more, whole = d :: more → more ≠ [] → 0 < d
  places_digits : Text.AreDigits places
  real : places ≠ [] ∨ exponent ≠ none

namespace RealNumeral

/-- The characters of an exponent, which has a sign. -/
def exponentChars : Option ℤ → List Char
  | none => []
  | some e => 'e' :: (if e < 0 then '-' else '+') :: (Text.toDigits e.natAbs).map Text.digitChar

/-- The characters of places, which follow a point. -/
def placesChars (places : List ℕ) : List Char :=
  if places = [] then [] else '.' :: places.map Text.digitChar

/-- The characters of a numeral. -/
def chars (n : RealNumeral) : List Char :=
  n.whole.map Text.digitChar ++ (placesChars n.places ++ exponentChars n.exponent)

end RealNumeral

namespace Binary64

variable {x : Binary64} {n : ℕ}

/-- Zero does not read back as another number. -/
lemma readsBack_zero {d : ℕ} (h : x.magnitude ≠ 0) (hd : 0 < d) : x.readsBack 0 d = false := by
  by_contra hreads
  obtain ⟨hlow, -⟩ := near_of_readsBack (Bool.not_eq_false _ ▸ hreads)
  have hunit : 2 ^ x.unit ≤ x.magnitude := by
    rw [magnitude]
    refine Nat.le_mul_of_pos_left _ (Nat.pos_of_ne_zero ?_)
    intro hzero
    exact h (by rw [magnitude, hzero, Nat.zero_mul])
  have hpos : 0 < 2 ^ x.unit * d := Nat.mul_pos (Nat.two_pow_pos _) hd
  have hle := Nat.mul_le_mul_right d hunit
  omega

/-- The shortest digits of a number other than zero begin with one that is not zero. -/
lemma shortest_digits (h : x.magnitude ≠ 0) :
    ∃ d rest, x.shortest.digits = d :: rest ∧ 0 < d ∧ Text.AreDigits (d :: rest) := by
  have hfound := onGrid_shortestFrom (onGrid_seventeen h)
    (show 1 ≤ 17 by decide) (show 17 < 1 + 17 by decide)
  have hdigits : x.shortest.digits = dropTrailingZeros (Text.toDigits
      (x.shortestFrom (decimalPoint x.magnitude (2 ^ placeBits)) 17 1).1) := by
    rw [shortest, ← placeBits_eq]
  generalize (x.shortestFrom (decimalPoint x.magnitude (2 ^ placeBits)) 17 1) = found at *
  have hpos : found.1 ≠ 0 := by
    intro hzero
    have hreads := readsBack_of_onGrid hfound
    rw [hzero, Nat.zero_mul, readsBack_zero h (by positivity)] at hreads
    cases hreads
  obtain ⟨zeros, hzeros⟩ := exists_zeros (Text.toDigits found.1)
  have hvalue := Text.ofDigits_toDigits found.1
  have hall := Text.areDigits_toDigits found.1
  rw [← hdigits] at hzeros
  cases hshort : x.shortest.digits with
  | nil =>
    rw [hzeros, hshort, List.nil_append, Text.ofDigits_zeros] at hvalue
    exact absurd hvalue.symm hpos
  | cons d rest =>
    rw [hshort] at hzeros
    refine ⟨d, rest, rfl, ?_, fun e he => hall e ?_⟩
    · by_cases hone : rest ++ List.replicate zeros 0 = []
      · rw [hzeros, List.cons_append, hone] at hvalue
        have hd : d = found.1 := by simpa [Text.ofDigits] using hvalue
        omega
      · exact Text.toDigits_head_pos (hzeros.trans (List.cons_append ..)) hone
    · rw [hzeros]
      exact List.mem_append_left _ he

/-- Zeros are written as such. -/
lemma zeros_eq_map (k : ℕ) : zeros k = (List.replicate k 0).map Text.digitChar := by
  rw [List.map_replicate]
  rfl

/-- Zeros are digits. -/
lemma areDigits_zeros (k : ℕ) : Text.AreDigits (List.replicate k 0) := by
  intro d hd
  rw [List.eq_of_mem_replicate hd]
  decide

section Layouts

variable {d : ℕ} {rest : List ℕ} {decimals : Decimals} (hdigits : decimals.digits = d :: rest)
  (hpos : 0 < d) (hall : Text.AreDigits (d :: rest))

include hdigits hall

/-- Scientific notation is a numeral with an exponent. -/
lemma exists_numeral_scientific :
    ∃ n : RealNumeral, (scientific decimals).toList = n.chars := by
  refine ⟨⟨[d], rest, some (decimals.point - 1), ?_, by simp, by simp, ?_, by simp⟩, ?_⟩
  · exact fun e he => hall e (List.mem_singleton.1 he ▸ List.mem_cons_self ..)
  · exact fun e he => hall e (List.mem_cons_of_mem d he)
  · have hsign : (if decimals.point - 1 < 0 then "-" else "+").toList =
        [if decimals.point - 1 < 0 then '-' else '+'] := by
      split_ifs <;> rfl
    have hplaces : (if ((d :: rest).map Text.digitChar).length ≤ 1 then []
        else '.' :: rest.map Text.digitChar) = RealNumeral.placesChars rest := by
      cases rest <;> simp [RealNumeral.placesChars]
    rw [List.map_cons] at hplaces
    simp only [scientific, hdigits, RealNumeral.chars, RealNumeral.exponentChars, List.map_cons,
      List.map_nil, List.take_succ_cons, List.take_zero, List.drop_succ_cons, List.drop_zero,
      hplaces, String.toList_append, String.toList_ofList, hsign, Text.toList_natText,
      List.append_assoc, List.cons_append, List.nil_append]
    rfl

include hpos

/-- Positional notation is a numeral with places. -/
lemma exists_numeral_positional :
    ∃ n : RealNumeral, (positional decimals ".0").toList = n.chars := by
  have hhead : ∀ more e others, d :: more = e :: others → others ≠ [] → 0 < e := by
    rintro more e others heq -
    exact (List.cons.inj heq).1 ▸ hpos
  have hzero : Text.digitChar 0 = '0' := rfl
  unfold positional
  simp only [hdigits, List.length_map]
  split_ifs with hsmall hwhole
  · -- all digits stand behind the point
    refine ⟨⟨[0], List.replicate (-decimals.point).toNat 0 ++ d :: rest, none, areDigits_zeros 1,
      by simp, by simp, List.forall_mem_append.2 ⟨areDigits_zeros _, hall⟩, by simp⟩, ?_⟩
    simp [RealNumeral.chars, RealNumeral.placesChars, RealNumeral.exponentChars, zeros_eq_map,
      hzero]
  · -- the number is integral
    refine ⟨⟨d :: (rest ++ List.replicate (decimals.point.toNat - (d :: rest).length) 0), [0], none,
      ?_, by simp, hhead _, areDigits_zeros 1, by simp⟩, ?_⟩
    · rw [← List.cons_append]
      exact List.forall_mem_append.2 ⟨hall, areDigits_zeros _⟩
    simp [RealNumeral.chars, RealNumeral.placesChars, RealNumeral.exponentChars, zeros_eq_map,
      hzero]
  · obtain ⟨k, hk⟩ : ∃ k, decimals.point.toNat = k + 1 := ⟨decimals.point.toNat - 1, by omega⟩
    have hlt : k < rest.length := by
      rw [hk, List.length_cons] at hwhole
      omega
    refine ⟨⟨d :: rest.take k, rest.drop k, none, ?_, by simp, hhead _, ?_, ?_⟩, ?_⟩
    · exact fun e he => hall e (List.cons_subset_cons d (List.take_subset k rest) he)
    · exact fun e he => hall e (List.mem_cons_of_mem d (List.mem_of_mem_drop he))
    · simpa using hlt
    · simp [RealNumeral.chars, RealNumeral.placesChars, RealNumeral.exponentChars, hk, hlt]

end Layouts

/-- A double is written in a document as a numeral with places or an exponent, with a sign where it
is negative. -/
theorem exists_numeral (x : Binary64) : ∃ n : RealNumeral,
    x.jsonText.toList = (if x.negative then ['-'] else []) ++ n.chars := by
  have hsign : (if x.negative then "-" else "").toList = if x.negative then ['-'] else [] := by
    cases x.negative <;> rfl
  simp only [jsonText]
  by_cases hzero : x.magnitude = 0
  · refine ⟨⟨[0], [0], none, areDigits_zeros 1, by simp, by simp, areDigits_zeros 1, by simp⟩, ?_⟩
    rw [if_pos hzero, String.toList_append, hsign]
    rfl
  · obtain ⟨d, rest, hdigits, hpos, hall⟩ := shortest_digits hzero
    rw [if_neg hzero]
    by_cases hplain : -5 < x.shortest.point ∧ x.shortest.point ≤ 16
    · obtain ⟨n, hn⟩ := exists_numeral_positional hdigits hpos hall
      exact ⟨n, by rw [if_pos hplain, String.toList_append, hsign, hn]⟩
    · obtain ⟨n, hn⟩ := exists_numeral_scientific hdigits hall
      exact ⟨n, by rw [if_neg hplain, String.toList_append, hsign, hn]⟩

end Binary64

end TableTail
