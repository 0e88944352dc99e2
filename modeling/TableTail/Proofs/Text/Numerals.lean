import Mathlib.Data.List.Induction
import Mathlib.Data.List.TakeWhile
import Mathlib.Tactic.Ring
import TableTail.Text.Blank
import TableTail.Text.Numeral

/-!
# Numerals

What is written as digits is read back as the same digits, whichever of the readers does it: all of
a text (`digits?_map_digitChar`), its beginning (`spanDigits_map_digitChar`), or a number within
bounds (`boundedNat_map_digitChar`). The digits of a number have its value (`ofDigits_toDigits`),
and the text of a 64-bit integer is read as that integer (`readInt64_intText`).

Readers take the blanks around a text off, and nothing else (`toList_trim`, `trim_eq_of_toList`).
-/

namespace TableTail.Text

/-- Digit values, as opposed to any numbers. -/
def AreDigits (ds : List Nat) : Prop := ∀ d ∈ ds, d < 10

/-- The digits of a number, filled with zeros on the left up to a width. -/
def paddedDigits (width n : Nat) : List Nat :=
  List.replicate (width - (toDigits n).length) 0 ++ toDigits n

variable {ds : List Nat} {d n m width : Nat}

/-- A digit's character has its value. -/
lemma digit?_digitChar (h : d < 10) : digit? (digitChar d) = some d := by
  have hall : ∀ d : Fin 10, digit? (digitChar d) = some d.val := by decide
  exact hall ⟨d, h⟩

/-- A digit's character is a digit. -/
lemma isDigit_digitChar (h : d < 10) : isDigit (digitChar d) = true := by
  rw [isDigit, digit?_digitChar h]
  rfl

/-- A digit's character is not blank. -/
lemma isBlank_digitChar (h : d < 10) : isBlank (digitChar d) = false := by
  have hall : ∀ d : Fin 10, isBlank (digitChar d) = false := by decide
  exact hall ⟨d, h⟩

/-- A digit's character is different from what is no digit. -/
lemma digitChar_ne (h : d < 10) {c : Char} (hc : digit? c = none) : digitChar d ≠ c := by
  rintro rfl
  rw [digit?_digitChar h] at hc
  cases hc

section Digits

/-- The digits of a number are digits. -/
lemma areDigits_toDigits (n : Nat) : AreDigits (toDigits n) := by
  fun_induction toDigits n with
  | case1 n h => simpa [AreDigits] using h
  | case2 n h ih =>
    intro d hd
    rcases List.mem_append.1 hd with hd | hd
    · exact ih d hd
    · obtain rfl := List.mem_singleton.1 hd
      exact Nat.mod_lt _ (by decide)

/-- A number has at least one digit. -/
lemma toDigits_ne_nil (n : Nat) : toDigits n ≠ [] := by
  rw [toDigits]
  split <;> simp

/-- Digits behind others count below them. -/
lemma foldl_digits (m : Nat) (ds : List Nat) :
    ds.foldl (fun n d => 10 * n + d) m = m * 10 ^ ds.length + ofDigits ds := by
  induction ds generalizing m with
  | nil => simp [ofDigits]
  | cons d rest ih =>
    rw [ofDigits, List.foldl_cons, List.foldl_cons, ih, ih (10 * 0 + d), List.length_cons, pow_succ]
    ring

/-- The value of two rows of digits. -/
lemma ofDigits_append (ds es : List Nat) :
    ofDigits (ds ++ es) = ofDigits ds * 10 ^ es.length + ofDigits es := by
  rw [ofDigits, List.foldl_append, foldl_digits]
  rfl

/-- The digits of a number have its value. -/
theorem ofDigits_toDigits (n : Nat) : ofDigits (toDigits n) = n := by
  fun_induction toDigits n with
  | case1 n h => simp [ofDigits]
  | case2 n h ih =>
    rw [ofDigits_append, ih]
    simp only [ofDigits, List.foldl_cons, List.foldl_nil, List.length_singleton]
    omega

/-- A number with several digits does not begin with a zero. -/
lemma toDigits_head_pos {rest : List Nat} (h : toDigits n = d :: rest) (hrest : rest ≠ []) :
    0 < d := by
  fun_induction toDigits n generalizing rest with
  | case1 n hn =>
    obtain ⟨rfl, rfl⟩ := List.cons.inj h
    exact absurd rfl hrest
  | case2 n hn ih =>
    cases hinit : toDigits (n / 10) with
    | nil => exact absurd hinit (toDigits_ne_nil _)
    | cons e more =>
      rw [hinit, List.cons_append] at h
      obtain ⟨rfl, rfl⟩ := List.cons.inj h
      by_cases hmore : more = []
      · have hvalue := ofDigits_toDigits (n / 10)
        rw [hinit, hmore] at hvalue
        simp only [ofDigits, List.foldl_cons, List.foldl_nil] at hvalue
        omega
      · exact ih hinit hmore

/-- A number below a power of ten has no more digits than that. -/
lemma length_toDigits_le (hpos : 0 < width) (h : n < 10 ^ width) : (toDigits n).length ≤ width := by
  induction width generalizing n with
  | zero => cases hpos
  | succ width ih =>
    rw [toDigits]
    split
    · simp
    · next hn =>
      have hwidth : 0 < width := Nat.pos_of_ne_zero fun h0 => hn (by simpa [h0] using h)
      have hle : (toDigits (n / 10)).length ≤ width := ih hwidth (by rw [pow_succ] at h; omega)
      simpa using hle

/-- Filled digits are digits. -/
lemma areDigits_paddedDigits (width n : Nat) : AreDigits (paddedDigits width n) := by
  intro d hd
  rcases List.mem_append.1 hd with hd | hd
  · rw [List.eq_of_mem_replicate hd]
    decide
  · exact areDigits_toDigits n d hd

/-- There is at least one filled digit. -/
lemma paddedDigits_ne_nil (width n : Nat) : paddedDigits width n ≠ [] := by
  simp [paddedDigits, toDigits_ne_nil]

/-- Zeros have no value. -/
lemma ofDigits_zeros (count : Nat) : ofDigits (List.replicate count 0) = 0 := by
  induction count with
  | zero => rfl
  | succ count ih => simpa [List.replicate_succ, ofDigits] using ih

/-- Filling with zeros does not change the value. -/
lemma ofDigits_paddedDigits (width n : Nat) : ofDigits (paddedDigits width n) = n := by
  rw [paddedDigits, ofDigits_append, ofDigits_zeros, ofDigits_toDigits, Nat.zero_mul, Nat.zero_add]

/-- Filled digits have the width, unless the number has more of its own. -/
lemma length_paddedDigits (width n : Nat) :
    (paddedDigits width n).length = max width (toDigits n).length := by
  simp only [paddedDigits, List.length_append, List.length_replicate]
  omega

/-- A number below a power of ten is filled to the width. -/
lemma length_paddedDigits_of_lt (hpos : 0 < width) (h : n < 10 ^ width) :
    (paddedDigits width n).length = width := by
  rw [length_paddedDigits, Nat.max_eq_left (length_toDigits_le hpos h)]

end Digits

section Reading

/-- Digits are read as they were written. -/
theorem digits?_map_digitChar (h : AreDigits ds) : digits? (ds.map digitChar) = some ds := by
  induction ds with
  | nil => rfl
  | cons d rest ih =>
    have hd : digit? (digitChar d) = some d := digit?_digitChar (h d (by simp))
    have hrest := ih fun e he => h e (by simp [he])
    rw [digits?] at hrest ⊢
    simp [hd, hrest]

/-- Digits at the beginning of a text are read up to the first character that is none. -/
theorem spanDigits_map_digitChar (h : AreDigits ds) (rest : List Char)
    (hrest : ∀ c ∈ rest.head?, digit? c = none) :
    spanDigits (ds.map digitChar ++ rest) = (ds, rest) := by
  induction ds with
  | nil =>
    cases rest with
    | nil => rfl
    | cons c rest => simp [spanDigits, hrest c rfl]
  | cons d more ih =>
    have hd : digit? (digitChar d) = some d := digit?_digitChar (h d (by simp))
    have hmore := ih fun e he => h e (by simp [he])
    simp [spanDigits, hd, hmore]

/-- Digits whose value is within a bound are read as this value. -/
theorem boundedNat_map_digitChar (bound : Nat) (above : NumeralError) (h : AreDigits ds)
    (hbound : ds.foldl (fun n d => 10 * n + d) m ≤ bound) :
    boundedNat bound above m (ds.map digitChar) = .ok (ds.foldl (fun n d => 10 * n + d) m) := by
  induction ds generalizing m with
  | nil => rfl
  | cons d rest ih =>
    have hd : digit? (digitChar d) = some d := digit?_digitChar (h d (by simp))
    have hhere : ¬ bound < 10 * m + d := by
      rw [List.foldl_cons, foldl_digits] at hbound
      have hpos : 0 < 10 ^ rest.length := Nat.pos_of_ne_zero (by simp)
      have := Nat.le_mul_of_pos_right (10 * m + d) hpos
      omega
    rw [List.map_cons, boundedNat, hd]
    simp only [hhere, if_false]
    exact ih (fun e he => h e (by simp [he])) hbound

/-- The text of a number is its digits. -/
@[simp] lemma toList_natText (n : Nat) : (natText n).toList = (toDigits n).map digitChar := by
  simp [natText]

/-- The text of a number that is filled is its filled digits. -/
@[simp] lemma toList_padded (width n : Nat) :
    (padded width n).toList = (paddedDigits width n).map digitChar := by
  simp [padded, paddedDigits, digitChar]

/-- The text of an integer is a sign where it is negative, and digits. -/
lemma toList_intText (i : Int) :
    (intText i).toList =
      (if i < 0 then ['-'] else []) ++ (toDigits i.natAbs).map digitChar := by
  cases i with
  | ofNat n => simp [intText]
  | negSucc n => simp [intText, Int.negSucc_lt_zero]

/-- The text of a 64-bit integer denotes this integer. -/
theorem readInt64_intText (i : Int64) : readInt64 (intText i.toInt).toList = .ok i := by
  have hmax := i.toInt_lt
  have hmin := i.le_toInt
  have hdigits := areDigits_toDigits i.toInt.natAbs
  have hvalue : (toDigits i.toInt.natAbs).foldl (fun n d => 10 * n + d) 0 = i.toInt.natAbs :=
    ofDigits_toDigits _
  rw [toList_intText]
  cases hds : toDigits i.toInt.natAbs with
  | nil => exact absurd hds (toDigits_ne_nil _)
  | cons d rest =>
    rw [hds] at hdigits hvalue
    have hd : d < 10 := hdigits d (by simp)
    by_cases hneg : i.toInt < 0
    · have hread := boundedNat_map_digitChar (2 ^ 63) .tooSmall hdigits
        (by rw [hvalue]; omega)
      rw [hvalue] at hread
      simp only [hneg, if_true, List.singleton_append, List.map_cons] at hread ⊢
      rw [readInt64, hread]
      · have hnegated : -(i.toInt.natAbs : Int) = i.toInt := by omega
        change Except.ok (Int64.ofInt (-(i.toInt.natAbs : Int))) = Except.ok i
        rw [hnegated, Int64.ofInt_toInt]
      · simp
    · have hread := boundedNat_map_digitChar (2 ^ 63 - 1) .tooLarge hdigits
        (by rw [hvalue]; omega)
      rw [hvalue] at hread
      simp only [hneg, if_false, List.nil_append, List.map_cons] at hread ⊢
      have hplus : digitChar d ≠ '+' := digitChar_ne hd (by decide)
      have hminus : digitChar d ≠ '-' := digitChar_ne hd (by decide)
      rw [readInt64, hread]
      · have hsame : (i.toInt.natAbs : Int) = i.toInt := by omega
        change Except.ok (Int64.ofInt (i.toInt.natAbs : Int)) = Except.ok i
        rw [hsame, Int64.ofInt_toInt]
      all_goals simp [hplus, hminus]

/-- A text is not read as a bounded number past a character that is no digit. -/
lemma boundedNat_eq_error {cs : List Char} {c : Char} (bound : Nat) (above : NumeralError)
    (hc : c ∈ cs) (hdigit : digit? c = none) : ∃ e, boundedNat bound above m cs = .error e := by
  induction cs generalizing m with
  | nil => cases hc
  | cons first rest ih =>
    rw [boundedNat]
    split
    · exact ⟨_, rfl⟩
    · next d hd =>
      split
      · exact ⟨_, rfl⟩
      · rcases List.mem_cons.1 hc with rfl | hrest
        · rw [hdigit] at hd
          cases hd
        · exact ih hrest

/-- A text with a character that is neither a digit nor a sign is not read as an integer. -/
lemma readInt64_eq_error {cs : List Char} {c : Char} (hc : c ∈ cs) (hdigit : digit? c = none)
    (hplus : c ≠ '+') (hminus : c ≠ '-') : ∃ e, readInt64 cs = .error e := by
  unfold readInt64
  split
  · exact ⟨_, rfl⟩
  · exact ⟨_, rfl⟩
  · exact ⟨_, rfl⟩
  · next ds _ =>
    have hds : c ∈ ds := (List.mem_cons.1 hc).resolve_left hplus
    obtain ⟨e, he⟩ := boundedNat_eq_error (m := 0) (2 ^ 63 - 1) .tooLarge hds hdigit
    exact ⟨e, by rw [he]; rfl⟩
  · next ds _ =>
    have hds : c ∈ ds := (List.mem_cons.1 hc).resolve_left hminus
    obtain ⟨e, he⟩ := boundedNat_eq_error (m := 0) (2 ^ 63) .tooSmall hds hdigit
    exact ⟨e, by rw [he]; rfl⟩
  · obtain ⟨e, he⟩ := boundedNat_eq_error (m := 0) (2 ^ 63 - 1) .tooLarge hc hdigit
    exact ⟨e, by rw [he]; rfl⟩

end Reading

section Trim

variable {s : List Char}

/-- A text without a blank in front keeps its front. -/
lemma trimStart_eq_self (h : ∀ c ∈ s.head?, isBlank c = false) : trimStart s = s := by
  cases s with
  | nil => rfl
  | cons c rest => exact trimStart_of_not_isBlank (h c rfl)

/-- A text without a blank at either end. -/
def Trimmed (s : List Char) : Prop :=
  (∀ c ∈ s.head?, isBlank c = false) ∧ ∀ c ∈ s.getLast?, isBlank c = false

/-- A text without a blank at either end is trimmed to itself. -/
theorem trim_eq_self {t : String} (h : Trimmed t.toList) : trim t = t := by
  have hend : trimEnd t.toList = t.toList := by
    have := trimStart_eq_self (s := t.toList.reverse) (by simpa using h.2)
    rw [trimEnd, ← trimStart, this, List.reverse_reverse]
  rw [trim, trimStart_eq_self h.1, hend, String.ofList_toList]

/-- Blanks around a text are taken off. -/
lemma trim_eq_of_toList {t inner : String} {before behind : List Char}
    (htext : t.toList = before ++ inner.toList ++ behind)
    (hblank : ∀ c ∈ before ++ behind, isBlank c = true) (hinner : Trimmed inner.toList)
    (hne : inner.toList ≠ []) : trim t = inner := by
  rw [List.forall_mem_append] at hblank
  have hstart : trimStart t.toList = inner.toList ++ behind := by
    rw [htext, List.append_assoc, trimStart, List.dropWhile_append_of_pos hblank.1]
    apply trimStart_eq_self
    obtain ⟨first, rest, hfirst⟩ := List.exists_cons_of_ne_nil hne
    have hhead := hinner.1
    rw [hfirst] at hhead ⊢
    exact hhead
  have hend : trimEnd (inner.toList ++ behind) = trimEnd inner.toList := by
    rw [trimEnd, List.reverse_append, List.dropWhile_append_of_pos, trimEnd]
    intro c hc
    exact hblank.2 c (List.mem_reverse.1 hc)
  rw [trim, hstart, hend]
  have hself := trim_eq_self hinner
  rwa [trim, trimStart_eq_self hinner.1] at hself

/-- A text is what is left of it without the blanks around it, with blanks around it. -/
lemma toList_trim (s : String) :
    ∃ before behind, s.toList = before ++ (trim s).toList ++ behind ∧
      ∀ c ∈ before ++ behind, isBlank c = true := by
  have hblank : ∀ (l : List Char), ∀ c ∈ l.takeWhile isBlank, isBlank c = true :=
    fun l c hc => List.mem_takeWhile_imp hc
  refine ⟨s.toList.takeWhile isBlank, ((trimStart s.toList).reverse.takeWhile isBlank).reverse,
    ?_, ?_⟩
  · have hend : trimEnd (trimStart s.toList) ++
        ((trimStart s.toList).reverse.takeWhile isBlank).reverse = trimStart s.toList := by
      rw [trimEnd, ← List.reverse_append, List.takeWhile_append_dropWhile, List.reverse_reverse]
    rw [trim, String.toList_ofList, List.append_assoc, hend, trimStart,
      List.takeWhile_append_dropWhile]
  · intro c hc
    rcases List.mem_append.1 hc with hbefore | hbehind
    · exact hblank _ c hbefore
    · exact hblank _ c (List.mem_reverse.1 hbehind)

/-- What is not blank is still in a text that is trimmed. -/
lemma mem_trim {t : String} {c : Char} (hc : c ∈ t.toList) (hblank : isBlank c = false) :
    c ∈ (trim t).toList := by
  obtain ⟨before, behind, htext, hblanks⟩ := toList_trim t
  have hnot : c ∉ before ++ behind := by
    intro hmem
    rw [hblanks c hmem] at hblank
    cases hblank
  rw [htext] at hc
  simp only [List.mem_append, not_or] at hc hnot
  exact (hc.resolve_right hnot.2).resolve_left hnot.1

/-- A text that ends in digits has no blank at its end. -/
lemma trimmed_append_digits {front : List Char} (hfront : ∀ c ∈ front.head?, isBlank c = false)
    (hds : AreDigits ds) (hne : ds ≠ []) : Trimmed (front ++ ds.map digitChar) := by
  have hblank : ∀ c ∈ ds.map digitChar, isBlank c = false := by
    intro c hc
    obtain ⟨d, hd, rfl⟩ := List.mem_map.1 hc
    exact isBlank_digitChar (hds d hd)
  have hmap : ds.map digitChar ≠ [] := by simpa using hne
  refine ⟨fun c hc => ?_, fun c hc => ?_⟩
  · cases front with
    | nil => exact hblank c (List.mem_of_mem_head? hc)
    | cons d rest => exact hfront c hc
  · obtain ⟨e, he⟩ : ∃ e, (ds.map digitChar).getLast? = some e :=
      ⟨_, List.getLast?_eq_some_getLast hmap⟩
    rw [List.getLast?_append, he, Option.some_or] at hc
    obtain rfl := Option.some.inj hc
    exact hblank e (List.mem_of_getLast? he)

/-- The text of an integer has no blank at either end. -/
lemma trimmed_intText (i : Int) : Trimmed (intText i).toList := by
  rw [toList_intText]
  refine trimmed_append_digits (fun c hc => ?_) (areDigits_toDigits _) (toDigits_ne_nil _)
  split at hc
  · exact Option.some.inj hc ▸ rfl
  · cases hc

end Trim

end TableTail.Text
