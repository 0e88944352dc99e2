import Mathlib.Tactic.IntervalCases
import TableTail.Calendar.Date

/-!
# Days and their numbers

The days of the calendar are numbered without gaps, in the order of year, month and day: a month is
followed by the next one after as many days as it has (`dayNumber_succ_month`), so a later day has a
larger number (`dayNumber_lt_iff`), and the day after a day is one too, so every number is that of a
day (`exists_isDay`). The parts of a number are the day that it is the number of
(`partsOfDays_dayNumber`).
-/

namespace TableTail.Date

/-- The calendar has a day with these parts. -/
def IsDay (year : Int) (month day : Nat) : Prop := 1 ≤ day ∧ day ≤ daysInMonth year month

instance (year : Int) (month day : Nat) : Decidable (IsDay year month day) :=
  inferInstanceAs (Decidable (_ ∧ _))

/-- Days in the order of their parts. -/
def Before (y : Int) (m d : Nat) (y' : Int) (m' d' : Nat) : Prop :=
  y < y' ∨ y = y' ∧ (m < m' ∨ m = m' ∧ d < d')

variable {y y' : Int} {m m' d d' : Nat}

/-- Of two different days one is before the other. -/
lemma before_trichotomy (y : Int) (m d : Nat) (y' : Int) (m' d' : Nat) :
    Before y m d y' m' d' ∨ (y = y' ∧ m = m' ∧ d = d') ∨ Before y' m' d' y m d := by
  unfold Before
  omega

/-- Leap years are those of a number that is divisible by four, with two exceptions. -/
lemma isLeapYear_iff : isLeapYear y = true ↔ y % 4 = 0 ∧ (y % 100 ≠ 0 ∨ y % 400 = 0) := by
  simp [isLeapYear]

/-- The parts of a date are those of a day. -/
lemma isDay (d : Date) : IsDay d.year d.month d.day := ⟨d.day_pos, d.day_le⟩

/-- A month that has days is one of twelve. -/
lemma IsDay.month (h : IsDay y m d) : 1 ≤ m ∧ m ≤ 12 := by
  obtain ⟨hpos, hle⟩ := h
  unfold daysInMonth at hle
  split_ifs at hle <;> omega

/-- A month has at least 28 days. -/
lemma daysInMonth_ge (hpos : 1 ≤ m) (hle : m ≤ 12) : 28 ≤ daysInMonth y m := by
  unfold daysInMonth
  split_ifs <;> omega

/-- The number of a day, with years counted from March on. -/
lemma dayNumber_eq (year : Int) (month day : Nat) :
    dayNumber year month day =
      let y := if month ≤ 2 then year - 1 else year
      let m : Int := if month ≤ 2 then month + 9 else (month : Int) - 3
      365 * y + y / 4 - y / 100 + y / 400 + (153 * m + 2) / 5 + day - 719469 := by
  unfold dayNumber
  simp only [Int.fdiv_eq_ediv_of_nonneg, Int.reduceLE]
  omega

/-- Days of a month have numbers in a row. -/
lemma dayNumber_add (year : Int) (month day : Nat) :
    dayNumber year month day = dayNumber year month 1 + day - 1 := by
  simp only [dayNumber_eq]
  omega

/-- A month is followed by the next one. -/
lemma dayNumber_succ_month (year : Int) (hpos : 1 ≤ m) (hlt : m < 12) :
    dayNumber year (m + 1) 1 = dayNumber year m 1 + daysInMonth year m := by
  by_cases hfebruary : m = 2
  · -- the last month of a year that is counted from March on
    subst hfebruary
    simp only [dayNumber_eq, daysInMonth, isLeapYear_iff]
    norm_num
    split_ifs <;> omega
  · simp only [dayNumber_eq, daysInMonth, if_neg hfebruary]
    interval_cases m <;> simp at hfebruary ⊢ <;> omega

/-- A year is followed by the next one. -/
lemma dayNumber_succ_year (year : Int) :
    dayNumber (year + 1) 1 1 = dayNumber year 12 1 + daysInMonth year 12 := by
  simp only [dayNumber_eq, daysInMonth]
  norm_num
  omega

/-- A month comes before a later one of the same year. -/
lemma dayNumber_month_le (year : Int) (hpos : 1 ≤ m) (hlt : m < m') (hle : m' ≤ 12) :
    dayNumber year m 1 + daysInMonth year m ≤ dayNumber year m' 1 := by
  induction m', hlt using Nat.le_induction with
  | base => rw [dayNumber_succ_month year hpos (by omega)]
  | succ m' hlt ih =>
    have hprevious := ih (by omega)
    have hnext := dayNumber_succ_month year (show 1 ≤ m' by omega) (show m' < 12 by omega)
    omega

/-- A month comes before all later years. -/
lemma dayNumber_year_le (hpos : 1 ≤ m) (hle : m ≤ 12) (hlt : y < y') :
    dayNumber y m 1 + daysInMonth y m ≤ dayNumber y' 1 1 := by
  induction y', hlt using Int.leInduction with
  | base =>
    rw [dayNumber_succ_year]
    rcases Nat.lt_or_eq_of_le hle with hlt | rfl
    · have hlast := dayNumber_month_le y hpos hlt le_rfl
      omega
    · exact le_rfl
  | succ y' hlt ih =>
    have hyear := dayNumber_month_le y' (show 1 ≤ 1 by decide) (show 1 < 12 by decide) le_rfl
    have hnext := dayNumber_succ_year y'
    omega

/-- A later day has a larger number. -/
theorem dayNumber_lt (h : IsDay y m d) (h' : IsDay y' m' d') (hbefore : Before y m d y' m' d') :
    dayNumber y m d < dayNumber y' m' d' := by
  obtain ⟨hmonth, hmonthle⟩ := h.month
  obtain ⟨hmonth', hmonthle'⟩ := h'.month
  have hday := h.2
  have hday' := h'.1
  rw [dayNumber_add y m d, dayNumber_add y' m' d']
  rcases hbefore with hyear | ⟨rfl, hmonths | ⟨rfl, hdays⟩⟩
  · have hthis := dayNumber_year_le (m := m) hmonth hmonthle hyear
    have hfirst : dayNumber y' 1 1 ≤ dayNumber y' m' 1 := by
      rcases Nat.lt_or_eq_of_le hmonth' with hlt | rfl
      · have := dayNumber_month_le y' le_rfl hlt hmonthle'
        omega
      · exact le_rfl
    omega
  · have hthis := dayNumber_month_le y hmonth hmonths hmonthle'
    omega
  · omega

/-- The order of days is that of their numbers. -/
theorem dayNumber_lt_iff (h : IsDay y m d) (h' : IsDay y' m' d') :
    dayNumber y m d < dayNumber y' m' d' ↔ Before y m d y' m' d' := by
  constructor
  · intro hlt
    rcases before_trichotomy y m d y' m' d' with hbefore | ⟨rfl, rfl, rfl⟩ | hafter
    · exact hbefore
    · exact absurd hlt (lt_irrefl _)
    · exact absurd hlt (dayNumber_lt h' h hafter).not_gt
  · exact dayNumber_lt h h'

/-- A day is in a year or a later one when its number is not before the first day of that year. -/
theorem le_year_iff (h : IsDay y m d) (year : Int) :
    year ≤ y ↔ dayNumber year 1 1 ≤ dayNumber y m d := by
  have hfirst : IsDay year 1 1 := ⟨le_rfl, show 1 ≤ 31 by decide⟩
  have hday := h.1
  have hmonth := h.month
  rw [← not_lt, ← not_lt, dayNumber_lt_iff h hfirst]
  unfold Before
  omega

/-- Every number is that of a day. -/
theorem exists_isDay (n : Int) : ∃ y m d, IsDay y m d ∧ dayNumber y m d = n := by
  induction n using Int.induction_on with
  | zero => exact ⟨1970, 1, 1, by decide, by decide⟩
  | succ n ih =>
    obtain ⟨y, m, d, hday, hn⟩ := ih
    obtain ⟨hmonth, hmonthle⟩ := hday.month
    rw [dayNumber_add] at hn
    by_cases hlast : d < daysInMonth y m
    · refine ⟨y, m, d + 1, ⟨by omega, hlast⟩, ?_⟩
      rw [dayNumber_add]
      omega
    · have hend : d = daysInMonth y m := le_antisymm hday.2 (by omega)
      rcases Nat.lt_or_eq_of_le hmonthle with hlt | rfl
      · have hdays := daysInMonth_ge (y := y) (m := m + 1) (by omega) (by omega)
        refine ⟨y, m + 1, 1, ⟨le_rfl, by omega⟩, ?_⟩
        rw [dayNumber_succ_month y hmonth hlt]
        omega
      · have hdays := daysInMonth_ge (y := y + 1) (m := 1) le_rfl (by decide)
        refine ⟨y + 1, 1, 1, ⟨le_rfl, by omega⟩, ?_⟩
        rw [dayNumber_succ_year]
        omega
  | pred n ih =>
    obtain ⟨y, m, d, hday, hn⟩ := ih
    obtain ⟨hmonth, hmonthle⟩ := hday.month
    have hpos := hday.1
    rw [dayNumber_add] at hn
    by_cases hfirst : 1 < d
    · refine ⟨y, m, d - 1, ⟨by omega, by have := hday.2; omega⟩, ?_⟩
      rw [dayNumber_add]
      omega
    · by_cases hjanuary : m = 1
      · subst hjanuary
        have hyear := dayNumber_succ_year (y - 1)
        rw [Int.sub_add_cancel] at hyear
        have hdays := daysInMonth_ge (y := y - 1) (m := 12) (by decide) le_rfl
        refine ⟨y - 1, 12, daysInMonth (y - 1) 12, ⟨by omega, le_rfl⟩, ?_⟩
        rw [dayNumber_add]
        omega
      · have hstep := dayNumber_succ_month y (m := m - 1) (by omega) (by omega)
        rw [Nat.sub_add_cancel hmonth] at hstep
        have hdays := daysInMonth_ge (y := y) (m := m - 1) (by omega) (by omega)
        refine ⟨y, m - 1, daysInMonth y (m - 1), ⟨by omega, le_rfl⟩, ?_⟩
        rw [dayNumber_add]
        omega

/-- The place of a day in the year that is counted from March on. -/
lemma dayOfYear_cases (h : IsDay y m d) :
    let y' := if m ≤ 2 then y - 1 else y
    let m' : Int := if m ≤ 2 then m + 9 else (m : Int) - 3
    let dayOfYear := (153 * m' + 2) / 5 + d - 1
    0 ≤ m' ∧ m' ≤ 11 ∧ 0 ≤ dayOfYear ∧ (5 * dayOfYear + 2) / 153 = m' ∧
      (dayOfYear < 365 ∨ dayOfYear = 365 ∧ isLeapYear (y' + 1) = true) := by
  obtain ⟨hmonth, hmonthle⟩ := h.month
  obtain ⟨hpos, hle⟩ := h
  by_cases hfebruary : m = 2
  · subst hfebruary
    cases hleap : isLeapYear y with
    | true =>
      simp [daysInMonth, hleap] at hle ⊢
      omega
    | false =>
      simp [daysInMonth, hleap] at hle ⊢
      omega
  · simp only [daysInMonth, if_neg hfebruary] at hle
    interval_cases m <;> simp at hfebruary hle ⊢ <;> omega

/-- The year in which a day falls, within 400 years from March on: of these years the last of every
four has one day more, but not the last of every hundred, except for the very last one. -/
lemma yearOfEra_eq {c q r dayOfYear dayOfEra : Int} (hc : 0 ≤ c ∧ c ≤ 3) (hq : 0 ≤ q ∧ q ≤ 24)
    (hr : 0 ≤ r ∧ r ≤ 3) (hpos : 0 ≤ dayOfYear)
    (hle : dayOfYear < 365 ∨ dayOfYear = 365 ∧ r = 3 ∧ (q < 24 ∨ c = 3))
    (hday : dayOfEra = 36524 * c + 1461 * q + 365 * r + dayOfYear) :
    (dayOfEra - dayOfEra / 1460 + dayOfEra / 36524 - dayOfEra / 146096) / 365 =
      100 * c + 4 * q + r := by
  have hcenturies : dayOfEra / 36524 - dayOfEra / 146096 = c := by
    have hlast : 1461 * q + 365 * r + dayOfYear < 36524 ∨ c = 3 ∧ dayOfEra = 146096 := by omega
    rcases hlast with hlt | ⟨rfl, hend⟩
    · have hwhole : dayOfEra / 36524 = c := by omega
      have hnone : dayOfEra / 146096 = 0 := by omega
      omega
    · rw [hend]
      rfl
  have hfours : dayOfEra / 1460 = 25 * c + q +
      if 1460 ≤ 24 * c + q + 365 * r + dayOfYear then 1 else 0 := by
    split <;> omega
  split at hfours
  · omega
  · omega

/-- A year in its era of 400 years, its century and its place in four years. -/
lemma exists_eraParts (Y : Int) :
    ∃ E c q r : Int, (0 ≤ c ∧ c ≤ 3) ∧ (0 ≤ q ∧ q ≤ 24) ∧ (0 ≤ r ∧ r ≤ 3) ∧
      Y = 400 * E + 100 * c + 4 * q + r ∧ Y / 4 = 100 * E + 25 * c + q ∧ Y / 100 = 4 * E + c ∧
      Y / 400 = E ∧ (isLeapYear (Y + 1) = true → r = 3 ∧ (q < 24 ∨ c = 3)) := by
  refine ⟨Y / 400, Y % 400 / 100, Y % 100 / 4, Y % 4, by omega, by omega, by omega, by omega,
    by omega, by omega, by omega, ?_⟩
  rw [isLeapYear_iff]
  omega

/-- The parts of a number, from its place in its era. -/
lemma partsOfDays_eq {n E c q r M D : Int} (hc : 0 ≤ c ∧ c ≤ 3) (hq : 0 ≤ q ∧ q ≤ 24)
    (hr : 0 ≤ r ∧ r ≤ 3) (hD : 0 ≤ D) (hleap : D < 365 ∨ D = 365 ∧ r = 3 ∧ (q < 24 ∨ c = 3))
    (hM : (5 * D + 2) / 153 = M)
    (hn : n + 719468 = E * 146097 + (36524 * c + 1461 * q + 365 * r + D)) :
    partsOfDays n =
      let month := if M < 10 then M + 3 else M - 9
      (if month ≤ 2 then 400 * E + 100 * c + 4 * q + r + 1 else 400 * E + 100 * c + 4 * q + r,
        month.toNat, (D - (153 * M + 2) / 5 + 1).toNat) := by
  have hera : (n + 719468) / 146097 = E := by
    rw [hn]
    omega
  have hyear := yearOfEra_eq hc hq hr hD hleap rfl
  have hday : 36524 * c + 1461 * q + 365 * r + D - (365 * (100 * c + 4 * q + r) +
      (100 * c + 4 * q + r) / 4 - (100 * c + 4 * q + r) / 100) = D := by
    clear hn hM hyear hleap
    omega
  have hwhole : 100 * c + 4 * q + r + E * 400 = 400 * E + 100 * c + 4 * q + r := by
    clear hn hM hyear hday hera
    omega
  unfold partsOfDays
  simp only [Int.fdiv_eq_ediv_of_nonneg, Int.reduceLE, hera]
  rw [hn, add_sub_cancel_left, hyear, hday, hM, hwhole]

/-- The parts of a day's number are those of the day. -/
theorem partsOfDays_dayNumber (h : IsDay y m d) : partsOfDays (dayNumber y m d) = (y, m, d) := by
  obtain ⟨hmonth, hmonthle⟩ := h.month
  have hnumber := dayNumber_eq y m d
  have hplace := dayOfYear_cases h
  simp only at hnumber hplace
  -- year and month counted from March on
  generalize hY : (if m ≤ 2 then y - 1 else y) = Y at hnumber hplace
  generalize hM : (if m ≤ 2 then (m : Int) + 9 else (m : Int) - 3) = M at hnumber hplace
  obtain ⟨hM0, hM11, hD, hMD, hDle⟩ := hplace
  obtain ⟨E, c, q, r, hc, hq, hr, hyear, hfours, hcenturies, heras, hlast⟩ := exists_eraParts Y
  have hleap : (153 * M + 2) / 5 + d - 1 < 365 ∨
      (153 * M + 2) / 5 + d - 1 = 365 ∧ r = 3 ∧ (q < 24 ∨ c = 3) :=
    hDle.imp_right fun hend => ⟨hend.1, hlast hend.2⟩
  have hn : dayNumber y m d + 719468 =
      E * 146097 + (36524 * c + 1461 * q + 365 * r + ((153 * M + 2) / 5 + d - 1)) := by
    rw [hnumber, hfours, hcenturies, heras, hyear]
    generalize (153 * M + 2) / 5 = start
    omega
  rw [partsOfDays_eq hc hq hr hD hleap hMD hn, ← hyear]
  clear hn hleap hlast heras hcenturies hfours hDle hMD hD hnumber
  have hday : ((153 * M + 2) / 5 + d - 1 - (153 * M + 2) / 5 + 1).toNat = d := by
    generalize (153 * M + 2) / 5 = start
    omega
  simp only [hday]
  by_cases hwinter : m ≤ 2
  · rw [if_pos hwinter] at hY hM
    have hafter : (if M < 10 then M + 3 else M - 9) = m := by
      split <;> omega
    rw [hafter, Int.toNat_natCast, if_pos (by omega)]
    congr 1
    omega
  · rw [if_neg hwinter] at hY hM
    have hafter : (if M < 10 then M + 3 else M - 9) = m := by
      split <;> omega
    rw [hafter, Int.toNat_natCast, if_neg (by omega), hY]

/-- The parts of a number are those of a day, whose number it is. -/
theorem isDay_partsOfDays (n : Int) :
    IsDay (partsOfDays n).1 (partsOfDays n).2.1 (partsOfDays n).2.2 ∧
      dayNumber (partsOfDays n).1 (partsOfDays n).2.1 (partsOfDays n).2.2 = n := by
  obtain ⟨y, m, d, hday, rfl⟩ := exists_isDay n
  rw [partsOfDays_dayNumber hday]
  exact ⟨hday, rfl⟩

end TableTail.Date
