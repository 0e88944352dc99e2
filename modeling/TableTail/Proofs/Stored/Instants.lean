import TableTail.Proofs.Calendar.DayNumber
import TableTail.Proofs.Calendar.TimestampText
import TableTail.Proofs.Tail.MarkOrder
import TableTail.Proofs.Text.FixedWidth
import TableTail.Stored.Instant

/-!
# The order of written instants

From year zero on instants are written in fixed width, so they compare as texts in the order of
their milliseconds (`compare_ofMilliseconds`). A timestamp is finer than that: the instant of its
text is its nearest millisecond (`ofText_text`), which a later timestamp may share
(`Timestamp.nearestMillis_mono`).
-/

namespace TableTail

namespace Instant

open Text Date

section Order

variable {m m' : Int} {s s' : String}

/-- The widths of a written instant and what stands behind each of its numbers. -/
def shape : List (Nat × List Char) :=
  [(4, ['-']), (2, ['-']), (2, [' ']), (2, [':']), (2, [':']), (2, ['.']), (3, [])]

/-- The numbers of a written instant, from a day and the milliseconds in it. -/
def numbers (day : Int × Nat × Nat) (ms : Nat) : List Nat :=
  [day.1.toNat, day.2.1, day.2.2, ms / 3600000, ms / 60000 % 60, ms % 60000 / 1000,
    ms % 60000 % 1000]

/-- From year zero on an instant is written in fixed width. -/
lemma toList_layout {year : Int} (hyear : 0 ≤ year) (month day ms : Nat) :
    (layout year month day (ms / 3600000) (ms / 60000 % 60) (ms % 60000)).toList =
      written shape (numbers (year, month, day) ms) := by
  have hyearText : yearText year = padded 4 year.toNat := by
    rw [yearText, if_neg (not_lt.2 hyear)]
    congr 1
    omega
  simp only [layout, hyearText, numbers, shape, written, String.toList_append, List.append_assoc,
    show "-".toList = ['-'] from rfl, show " ".toList = [' '] from rfl,
    show ":".toList = [':'] from rfl, show ".".toList = ['.'] from rfl, List.append_nil]

/-- The numbers of an instant fit their widths up to year 9999. -/
lemma fits_numbers {year : Int} {month day ms : Nat} (hday : IsDay year month day)
    (hyear : year ≤ 9999) (hms : ms < 86400000) : Fits shape (numbers (year, month, day) ms) := by
  have hmonth := hday.month
  have hdays := hday.2.trans (Calendar.daysInMonth_le year month)
  simp only [Fits, shape, numbers, List.forall₂_cons, List.Forall₂.nil, and_true]
  omega

/-- On a later day the numbers are later. -/
lemma numbers_lt_of_before {day day' : Int × Nat × Nat} (hyear : 0 ≤ day.1)
    (h : Before day.1 day.2.1 day.2.2 day'.1 day'.2.1 day'.2.2) (ms ms' : Nat) :
    numbers day ms < numbers day' ms' := by
  unfold Before at h
  simp only [numbers, List.cons_lt_cons_iff]
  omega

/-- Later on one day the numbers are later. -/
lemma numbers_lt_of_ms {ms ms' : Nat} (day : Int × Nat × Nat) (h : ms < ms') :
    numbers day ms < numbers day ms' := by
  simp only [numbers, List.cons_lt_cons_iff, lt_irrefl, false_or, true_and]
  omega

/-- The instants that are represented are those between two bounds. -/
lemma isRepresented_iff : isRepresented m = true ↔
    0 ≤ m + epochOffset ∧ m + epochOffset < 464269060800000 := by
  simp [isRepresented]

/-- The first millisecond of year zero. -/
def yearZero : Int := -719528 * 86400000

/-- The days of the years 0 to 9999, by their numbers. -/
lemma year_bounds_iff {year : Int} {month day : Nat} (h : IsDay year month day) :
    0 ≤ year ∧ year ≤ 9999 ↔
      -719528 ≤ dayNumber year month day ∧ dayNumber year month day < 2932897 := by
  have hfirst := le_year_iff h 0
  have hend := le_year_iff h 10000
  rw [show dayNumber 0 1 1 = -719528 by decide] at hfirst
  rw [show dayNumber 10000 1 1 = 2932897 by decide] at hend
  omega

/-- From year zero on an instant is written as the numbers of its day and the milliseconds in it,
which fit. -/
lemma toList_ofMilliseconds (hyear : yearZero ≤ m) (h : ofMilliseconds m = some s) :
    let day := partsOfDays (m / 86400000)
    let ms := (m % 86400000).toNat
    0 ≤ day.1 ∧ Fits shape (numbers day ms) ∧ s.toList = written shape (numbers day ms) := by
  obtain ⟨hday, hnumber⟩ := isDay_partsOfDays (m / 86400000)
  unfold ofMilliseconds at h
  simp only [Int.fdiv_eq_ediv_of_nonneg, Int.fmod_eq_emod_of_nonneg, Int.reduceLE] at h
  split at h
  · next hrepresented =>
    have hbounds : 0 ≤ (partsOfDays (m / 86400000)).1 ∧ (partsOfDays (m / 86400000)).1 ≤ 9999 := by
      rw [year_bounds_iff hday, hnumber]
      have hlast := (isRepresented_iff.1 hrepresented).2
      unfold yearZero at hyear
      unfold epochOffset at hlast
      omega
    obtain rfl := Option.some.inj h
    exact ⟨hbounds.1, fits_numbers hday hbounds.2 (by omega), toList_layout hbounds.1 _ _ _⟩
  · cases h

/-- From year zero on a later instant has a later text. -/
theorem compare_ofMilliseconds (hyear : yearZero ≤ m) (hlt : m < m')
    (h : ofMilliseconds m = some s) (h' : ofMilliseconds m' = some s') : compare s s' = .lt := by
  obtain ⟨hfirst, hfits, htext⟩ := toList_ofMilliseconds hyear h
  obtain ⟨-, hfits', htext'⟩ := toList_ofMilliseconds (hyear.trans hlt.le) h'
  obtain ⟨hday, hnumber⟩ := isDay_partsOfDays (m / 86400000)
  obtain ⟨hday', hnumber'⟩ := isDay_partsOfDays (m' / 86400000)
  apply compare_of_toList_lt
  rw [htext, htext']
  apply written_lt hfits hfits'
  have hdays : m / 86400000 < m' / 86400000 ∨ m / 86400000 = m' / 86400000 := by omega
  rcases hdays with hdays | hsame
  · apply numbers_lt_of_before hfirst
    rw [← dayNumber_lt_iff hday hday', hnumber, hnumber']
    exact hdays
  · rw [hsame]
    apply numbers_lt_of_ms
    omega

end Order

end Instant

namespace Date

/-- A later date is a later day. -/
lemma toDays_lt {d d' : Date} (h : d.compareDay d' = .lt) : d.toDays < d'.toDays := by
  apply dayNumber_lt d.isDay d'.isDay
  unfold Before
  simpa only [compareDay, Ordering.then_eq_lt, Std.compare_eq_lt, Std.compare_eq_iff_eq] using h

end Date

namespace Timestamp

variable {t t' : Timestamp}

/-- The nearest millisecond of Unix time, a half going up. -/
def nearestMillis (t : Timestamp) : Int :=
  t.unixSeconds * 1000 + ((t.nano + 500000) / 1000000 : Nat)

/-- A later timestamp has no earlier nearest millisecond, leap seconds apart. -/
lemma nearestMillis_mono (hcivil : t.nano < 1000000000) (h : t.compareMoment t' = .lt) :
    t.nearestMillis ≤ t'.nearestMillis := by
  have hsecond := t.second_lt
  simp only [compareMoment, Ordering.then_eq_lt, Std.compare_eq_lt, Std.compare_eq_iff_eq] at h
  unfold nearestMillis unixSeconds
  rcases h with hdate | ⟨hdate, hclock⟩
  · have hdays := Date.toDays_lt hdate
    omega
  · rw [Date.eq_of_compareDay hdate]
    omega

/-- Timestamps from year zero on have their nearest millisecond there. -/
lemma yearZero_le_nearestMillis (h : 0 ≤ t.date.year) : Instant.yearZero ≤ t.nearestMillis := by
  have hdays : -719528 ≤ t.date.toDays := (Date.le_year_iff t.date.isDay 0).1 h
  unfold Instant.yearZero nearestMillis unixSeconds
  omega

end Timestamp

namespace Instant

open Text

section Reading

variable {width low high n second nano places : Nat} {rest : List Char}

/-- A number that is printed in a width is read as a field of this width between the bounds. -/
lemma field_padded_eq (low high : Nat) (hpos : 0 < width) (hn : n < 10 ^ width)
    (rest : List Char) :
    field width low high ((padded width n).toList ++ rest) =
      if low ≤ n ∧ n ≤ high then some (n, rest) else none := by
  have hlength : ((paddedDigits width n).map digitChar).length = width := by
    rw [List.length_map, length_paddedDigits_of_lt hpos hn]
  have hdigits := digits?_map_digitChar (areDigits_paddedDigits width n)
  rw [toList_padded, field, List.take_left' hlength, List.drop_left' hlength, hdigits]
  simp [length_paddedDigits_of_lt hpos hn, ofDigits_paddedDigits]

/-- A number that is printed in a width and is between the bounds is read. -/
lemma field_padded (hpos : 0 < width) (hn : n < 10 ^ width) (hlow : low ≤ n) (hhigh : n ≤ high)
    (rest : List Char) :
    field width low high ((padded width n).toList ++ rest) = some (n, rest) := by
  rw [field_padded_eq low high hpos hn, if_pos ⟨hlow, hhigh⟩]

/-- The character that is looked for is there. -/
@[simp] lemma after_cons (c : Char) (rest : List Char) : after c (c :: rest) = some rest :=
  if_pos rfl

/-- The text of a date in four digits is read as its parts. -/
lemma readDate_text {d : Date} (hyear : 0 ≤ d.year ∧ d.year ≤ 9999) (rest : List Char) :
    readDate (d.text.toList ++ rest) = some (d.year, d.month, d.day, rest) := by
  have hmonth := d.isDay.month
  have hday := d.day_le.trans (Calendar.daysInMonth_le d.year d.month)
  have hcast : (d.year.toNat : Int) = d.year := Int.toNat_of_nonneg hyear.1
  have hyearText : Date.yearText d.year = padded 4 d.year.toNat := if_pos hyear
  obtain ⟨c, more, hc, hfirst⟩ := Calendar.padded_cases 4 d.year.toNat
  have hsign : digitChar c ≠ '-' := digitChar_ne hc (by decide)
  have hyearField := field_padded (show 0 < 4 by decide) (show d.year.toNat < 10 ^ 4 by omega)
    (Nat.zero_le _) (show d.year.toNat ≤ 9999 by omega)
    ('-' :: ((padded 2 d.month).toList ++ ('-' :: ((padded 2 d.day).toList ++ rest))))
  have hmonthField := field_padded (show 0 < 2 by decide) (show d.month < 10 ^ 2 by omega)
    hmonth.1 hmonth.2 ('-' :: ((padded 2 d.day).toList ++ rest))
  have hdayField := field_padded (show 0 < 2 by decide) (show d.day < 10 ^ 2 by omega)
    d.day_pos hday rest
  rw [hfirst, List.cons_append] at hyearField
  simp only [Date.text, hyearText, String.toList_append, List.append_assoc,
    show "-".toList = ['-'] from rfl, List.cons_append, List.nil_append, hfirst, readDate]
  simp [hsign, hyearField, hmonthField, hdayField, hcast, -toList_padded]

/-- The places of a fraction are read as they were written. -/
lemma spanDigits_padded (places n : Nat) :
    spanDigits (padded places n).toList = (paddedDigits places n, []) := by
  have hspan := spanDigits_map_digitChar (areDigits_paddedDigits places n) [] nofun
  rwa [List.append_nil, ← toList_padded] at hspan

/-- Seconds as they are printed are read, to the nearest millisecond. -/
lemma readSeconds_text (hsecond : second < 60) (hnano : nano < 1000000000) :
    ∃ fraction, readSeconds (':' :: ((padded 2 second).toList ++
        (Timestamp.fractionText nano).toList)) = some (second, fraction, []) ∧
      milliseconds second fraction = second * 1000 + (nano + 500000) / 1000000 := by
  have hfield := field_padded (show 0 < 2 by decide) (show second < 10 ^ 2 by omega)
    (Nat.zero_le _) (show second ≤ 59 by omega) (Timestamp.fractionText nano).toList
  have hcases := Calendar.fractionText_cases nano
  rw [Nat.mod_eq_of_lt hnano] at hcases
  rcases hcases with ⟨rfl, hnone⟩ | ⟨places, n, hplaces, hn, hsome⟩
  · rw [hnone, List.append_nil] at hfield ⊢
    refine ⟨[], ?_, ?_⟩
    · simp [readSeconds, hfield, after, -toList_padded]
    · simp only [milliseconds, List.length_nil, ofDigits, List.foldl_nil]
      omega
  · have hspan := spanDigits_padded places n
    obtain ⟨d, more, hdigits⟩ := List.exists_cons_of_ne_nil (paddedDigits_ne_nil places n)
    rw [hsome] at hfield ⊢
    refine ⟨paddedDigits places n, ?_, ?_⟩
    · rw [hdigits] at hspan ⊢
      simp [readSeconds, hfield, hspan, -toList_padded]
    · rw [milliseconds, ofDigits_paddedDigits]
      rcases hplaces with rfl | rfl | rfl
      all_goals
        rw [length_paddedDigits_of_lt (by decide) (by omega)]
        omega

/-- The text of a time of day is read as its parts, to the nearest millisecond. -/
lemma readClock_text {t : Timestamp} (hcivil : t.nano < 1000000000) :
    ∃ fraction, readClock t.clockText.toList =
        some ⟨t.second / 3600, t.second / 60 % 60, t.second % 60, fraction, none⟩ ∧
      milliseconds (t.second % 60) fraction =
        t.second % 60 * 1000 + (t.nano + 500000) / 1000000 := by
  have hday := t.second_lt
  have hsecond : t.second % 60 + t.nano / 1000000000 = t.second % 60 := by omega
  obtain ⟨fraction, hread, hms⟩ := readSeconds_text (show t.second % 60 < 60 by omega) hcivil
  have hhour := field_padded (show 0 < 2 by decide) (show t.second / 3600 < 10 ^ 2 by omega)
    (Nat.zero_le _) (show t.second / 3600 ≤ 24 by omega)
    (':' :: ((padded 2 (t.second / 60 % 60)).toList ++
      (':' :: ((padded 2 (t.second % 60)).toList ++ (Timestamp.fractionText t.nano).toList))))
  have hminute := field_padded (show 0 < 2 by decide) (show t.second / 60 % 60 < 10 ^ 2 by omega)
    (Nat.zero_le _) (show t.second / 60 % 60 ≤ 59 by omega)
    (':' :: ((padded 2 (t.second % 60)).toList ++ (Timestamp.fractionText t.nano).toList))
  refine ⟨fraction, ?_, hms⟩
  simp only [Timestamp.clockText, hsecond, String.toList_append, List.append_assoc,
    show ":".toList = [':'] from rfl, List.cons_append, List.nil_append]
  simp [readClock, hhour, hminute, hread, readOffset, -toList_padded]

/-- What stands behind a date and a blank or a `T` is read as a time of day when it begins with a
digit. -/
lemma ofText_behind {date : Date} (hyear : 0 ≤ date.year ∧ date.year ≤ 9999) {separator : Char}
    (hseparator : separator = ' ' ∨ separator = 'T') {d : Nat} (hd : d < 10) {s : String}
    (hs : s.toList = date.text.toList ++ separator :: digitChar d :: rest) :
    ofText s =
      (readClock (digitChar d :: rest)).bind (ofParts date.year date.month date.day) := by
  have hletter : ∀ d : Fin 10, (Affinity.isSpace (digitChar d) || decide (digitChar d = 'T')) =
      false := by decide
  have hskip : (separator :: digitChar d :: rest).dropWhile
      (fun c => Affinity.isSpace c || decide (c = 'T')) = digitChar d :: rest := by
    rw [List.dropWhile_cons_of_pos (by rcases hseparator with rfl | rfl <;> decide),
      List.dropWhile_cons_of_neg]
    rw [hletter ⟨d, hd⟩]
    exact Bool.false_ne_true
  simp only [ofText, hs, readDate_text hyear, hskip]

/-- A date and a clock as they are printed are the instant of both. -/
lemma ofText_eq {t : Timestamp} {c : Clock} (hyear : 0 ≤ t.date.year ∧ t.date.year ≤ 9999)
    (hclock : readClock t.clockText.toList = some c) :
    ofText t.text = ofParts t.date.year t.date.month t.date.day c := by
  obtain ⟨d, more, hd, hfirst⟩ : ∃ d more, d < 10 ∧ t.clockText.toList = digitChar d :: more := by
    obtain ⟨d, more, hd, hhour⟩ := Calendar.padded_cases 2 (t.second / 3600)
    simp only [Timestamp.clockText, String.toList_append, hhour, List.cons_append]
    exact ⟨d, _, hd, rfl⟩
  have htext : t.text.toList = t.date.text.toList ++ (' ' :: digitChar d :: more) := by
    simp only [Timestamp.text, String.toList_append, List.append_assoc,
      show " ".toList = [' '] from rfl, List.singleton_append, hfirst]
  rw [ofText_behind hyear (.inl rfl) hd htext, ← hfirst, hclock, Option.bind_some]

end Reading

section Parts

open Date

variable {year : Int} {month day rest : Nat}

/-- Every time of a day in the years 0 to 9999 is represented. -/
lemma isRepresented_of_year (hday : IsDay year month day) (hyear : 0 ≤ year ∧ year ≤ 9999)
    (hrest : rest < 86400000) :
    isRepresented (dayNumber year month day * 86400000 + rest) = true := by
  have hbounds := (year_bounds_iff hday).1 hyear
  rw [isRepresented_iff]
  unfold epochOffset
  omega

/-- A day with a time of day in its minute is written as its millisecond. -/
lemma ofMilliseconds_eq {hour minute ms : Nat} (hday : IsDay year month day)
    (hyear : 0 ≤ year ∧ year ≤ 9999) (hhour : hour < 24) (hminute : minute < 60)
    (hms : ms < 60000) :
    ofMilliseconds (dayNumber year month day * 86400000 +
        ((hour * 3600000 + minute * 60000 + ms : Nat) : Int)) =
      some (layout year month day hour minute ms) := by
  have hrepresented := isRepresented_of_year hday hyear
    (show hour * 3600000 + minute * 60000 + ms < 86400000 by omega)
  have hdays : (dayNumber year month day * 86400000 +
      ((hour * 3600000 + minute * 60000 + ms : Nat) : Int)).fdiv 86400000 =
        dayNumber year month day := by
    rw [Int.fdiv_eq_ediv_of_nonneg _ (by decide)]
    omega
  have hclock : ((dayNumber year month day * 86400000 +
      ((hour * 3600000 + minute * 60000 + ms : Nat) : Int)).fmod 86400000).toNat =
        hour * 3600000 + minute * 60000 + ms := by
    rw [Int.fmod_eq_emod_of_nonneg _ (by decide)]
    omega
  simp only [ofMilliseconds, if_pos hrepresented, hdays, partsOfDays_dayNumber hday, hclock]
  congr 2
  · omega
  · omega
  · omega

/-- A time of day whose milliseconds are in its minute is written as its millisecond. -/
lemma ofParts_eq {hour minute second : Nat} {fraction : List Nat} (hday : IsDay year month day)
    (hyear : 0 ≤ year ∧ year ≤ 9999) (hhour : hour < 24) (hminute : minute < 60)
    (hms : milliseconds second fraction < 60000) :
    let m := dayNumber year month day * 86400000 +
      ((hour * 3600000 + minute * 60000 + milliseconds second fraction : Nat) : Int)
    ∃ s, ofParts year month day ⟨hour, minute, second, fraction, none⟩ = some s ∧
      ofMilliseconds m = some s := by
  intro m
  have hrepresented : isRepresented m = true := isRepresented_of_year hday hyear (by omega)
  have hyears : -4713 ≤ year := by omega
  -- the day of the millisecond is the day that was given
  have hparts : partsOfDays (m.fdiv 86400000) = (year, month, day) := by
    have hdays : m.fdiv 86400000 = dayNumber year month day := by
      rw [Int.fdiv_eq_ediv_of_nonneg _ (by decide)]
      omega
    rw [hdays, partsOfDays_dayNumber hday]
  have hmin : min (milliseconds second fraction) 59999 = milliseconds second fraction := by omega
  refine ⟨_, ?_, ofMilliseconds_eq hday hyear hhour hminute hms⟩
  simp only [ofParts, if_pos hyears]
  rw [if_pos hrepresented, hparts, hmin, ite_self]

end Parts

/-- From year zero to 9999 the text of a regular timestamp is written as its nearest millisecond,
when that is in the same minute. -/
theorem ofText_text {t : Timestamp} (hregular : t.IsRegular)
    (hyear : 0 ≤ t.date.year ∧ t.date.year ≤ 9999)
    (hminute : t.second % 60 * 1000 + (t.nano + 500000) / 1000000 < 60000) :
    ∃ s, ofText t.text = some s ∧ ofMilliseconds t.nearestMillis = some s := by
  have hsecond := t.second_lt
  have hleap : 1000000000 ≤ t.nano → t.second % 60 = 59 := hregular
  obtain ⟨fraction, hclock, hms⟩ := readClock_text (show t.nano < 1000000000 by omega)
  obtain ⟨s, hparts, hmillis⟩ := ofParts_eq t.date.isDay hyear
    (show t.second / 3600 < 24 by omega) (show t.second / 60 % 60 < 60 by omega) (hms ▸ hminute)
  have hnearest : t.nearestMillis =
      Date.dayNumber t.date.year t.date.month t.date.day * 86400000 +
        ((t.second / 3600 * 3600000 + t.second / 60 % 60 * 60000 +
          milliseconds (t.second % 60) fraction : Nat) : Int) := by
    rw [hms, Timestamp.nearestMillis, Timestamp.unixSeconds, Date.toDays]
    omega
  rw [ofText_eq hyear hclock, hnearest]
  exact ⟨s, hparts, hmillis⟩

end Instant

end TableTail
