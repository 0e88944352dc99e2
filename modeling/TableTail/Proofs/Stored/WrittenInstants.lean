import TableTail.Proofs.Calendar.WrittenInstant
import TableTail.Proofs.Stored.Instants

/-!
# Written instants as they are compared

A written instant that is kept as text is compared as the text of a millisecond. Seconds need not be
told (`readSeconds_chars`); a zone stands behind a time of day only and is at most fourteen whole
hours away (`exists_ofText_iff`). The millisecond is the nearest one, except where that is in the next
minute: then it is the last one of the minute, and at the end of a day past the 28th the last one of
the next day (`exists_ofParts`).
-/

namespace TableTail

open Text

/-- The whole hours between a zone and universal time. -/
def Zone.hours : Zone → Nat
  | universal => 0
  | offset _ hours _ _ _ => hours

namespace WrittenClock

/-- The digits of the fraction of a second. -/
def fraction (c : WrittenClock) : List Nat := (c.seconds.map WrittenSeconds.fraction).getD []

/-- The nearest millisecond of the minute, a half going up. -/
def millis (c : WrittenClock) : Nat := c.secondOfMinute * 1000 + (c.nano + 500000) / 1000000

end WrittenClock

/-- What a written instant is read as behind its date. -/
def WrittenInstant.reading (w : WrittenInstant) : Instant.Clock :=
  match w.clock with
  | none => Instant.midnight
  | some c => ⟨c.hour, c.minute, c.secondOfMinute, c.fraction,
      (w.zone.map Zone.minutes).filter (· ≠ 0)⟩

namespace WrittenInstant

/-- The nearest millisecond of Unix time, a half going up. -/
def millis (w : WrittenInstant) : Int := w.unixSeconds * 1000 + ((w.nano + 500000) / 1000000 : Nat)

/-- A zone stands behind a time of day only, at most fourteen whole hours away. -/
def ZoneFits (w : WrittenInstant) : Prop :=
  (w.clock = none → w.zone = none) ∧ ∀ z ∈ w.zone, z.hours ≤ 14

/-- The last half of the last millisecond of a day past the 28th, with no offset. -/
def Overflows (w : WrittenInstant) : Prop :=
  w.offset = 0 ∧ 28 < w.date.day ∧ ∃ c ∈ w.clock,
    c.hour = 23 ∧ c.minute = 59 ∧ c.secondOfMinute = 59 ∧ 999500000 ≤ c.nano

end WrittenInstant

namespace Instant

section Reading

variable (c : WrittenClock) (zone : Option Zone) (w : WrittenInstant)

/-- What is neither a digit nor a blank nor a zone is not there. -/
lemma after_charsOf {c : Char} (hc : c ≠ 'Z' ∧ c ≠ '+' ∧ c ≠ '-') (zone : Option Zone) :
    after c (Zone.charsOf zone) = none := by
  cases hchars : Zone.charsOf zone with
  | nil => rfl
  | cons first rest =>
    refine if_neg fun heq => ?_
    exact Zone.head?_charsOf_ne hc.1 hc.2.1 hc.2.2 zone rest (heq ▸ hchars)

/-- Behind a sign hours and minutes are read, up to the end. -/
lemma readOffset_sign (west : Bool) (s : List Char) :
    readOffset ((if west then '-' else '+') :: s) = (do
      let (hours, s) ← field 2 0 14 s
      let s ← after ':' s
      let (minutes, s) ← field 2 0 59 s
      let total : Int := hours * 60 + minutes
      if (s.dropWhile Affinity.isSpace).isEmpty then
        return some (if west then -total else total)
      else none) := by
  cases west with
  | true => rfl
  | false => rfl

/-- A zone is read as its minutes when it is at most fourteen whole hours away. -/
lemma readOffset_charsOf :
    readOffset (Zone.charsOf zone) =
      if ∀ z ∈ zone, z.hours ≤ 14 then some (zone.map Zone.minutes) else none := by
  cases zone with
  | none => rfl
  | some zone =>
    simp only [Option.mem_some_iff, forall_eq', Option.map_some]
    cases zone with
    | universal => rfl
    | offset west hours minutes hhours hminutes =>
      show readOffset ((if west then '-' else '+') ::
        ((padded 2 hours).toList ++ ':' :: (padded 2 minutes).toList)) = _
      rw [readOffset_sign, Zone.hours]
      by_cases hnear : hours ≤ 14
      · have hlast := field_padded (show 0 < 2 by decide) (show minutes < 10 ^ 2 by omega)
          (Nat.zero_le _) (show minutes ≤ 59 by omega) []
        rw [List.append_nil] at hlast
        rw [field_padded (by decide) (by omega) (Nat.zero_le _) hnear, if_pos hnear]
        simp only [Option.bind_eq_bind, Option.bind_some, after_cons, hlast, Zone.minutes]
        rfl
      · rw [field_padded_eq 0 14 (by decide) (by omega), if_neg (by omega), if_neg hnear]
        rfl

/-- Seconds are read as they were written, and none as zero. -/
lemma readSeconds_chars :
    readSeconds (c.secondsChars ++ Zone.charsOf zone) =
      some (c.secondOfMinute, c.fraction, Zone.charsOf zone) := by
  unfold WrittenClock.secondsChars WrittenClock.secondOfMinute WrittenClock.fraction
  cases c.seconds with
  | none =>
    have hnone : after ':' (Zone.charsOf zone) = none := after_charsOf (by decide) zone
    simp [readSeconds, hnone]
  | some s =>
    have hfield := field_padded (show 0 < 2 by decide)
      (show s.second < 10 ^ 2 by have := s.second_lt; omega) (Nat.zero_le _)
      (show s.second ≤ 59 by have := s.second_lt; omega) (s.fractionChars ++ Zone.charsOf zone)
    simp only [Option.map_some, Option.getD_some, WrittenSeconds.chars, List.cons_append,
      List.append_assoc, readSeconds, after_cons, Option.bind_eq_bind, Option.bind_some, hfield]
    by_cases hnone : s.fraction = []
    · have hchars : s.fractionChars = [] := if_pos hnone
      have hpoint : after '.' (Zone.charsOf zone) = none := after_charsOf (by decide) zone
      simp only [hchars, List.nil_append, hpoint, hnone]
    · have hchars : s.fractionChars = '.' :: s.fraction.map digitChar := if_neg hnone
      have hspan := spanDigits_map_digitChar s.digits (Zone.charsOf zone)
        (Zone.startsApart_charsOf zone)
      simp only [hchars, List.cons_append, after_cons, hspan]

/-- A time of day is read as its parts. -/
lemma readClock_chars :
    readClock (c.chars ++ Zone.charsOf zone) =
      if ∀ z ∈ zone, z.hours ≤ 14 then
        some ⟨c.hour, c.minute, c.secondOfMinute, c.fraction,
          (zone.map Zone.minutes).filter (· ≠ 0)⟩
      else none := by
  have hhour := field_padded (show 0 < 2 by decide)
    (show c.hour < 10 ^ 2 by have := c.hour_lt; omega) (Nat.zero_le _)
    (show c.hour ≤ 24 by have := c.hour_lt; omega)
    (':' :: ((padded 2 c.minute).toList ++ (c.secondsChars ++ Zone.charsOf zone)))
  have hminute := field_padded (show 0 < 2 by decide)
    (show c.minute < 10 ^ 2 by have := c.minute_lt; omega) (Nat.zero_le _)
    (show c.minute ≤ 59 by have := c.minute_lt; omega) (c.secondsChars ++ Zone.charsOf zone)
  simp only [readClock, WrittenClock.chars, List.append_assoc, List.cons_append, hhour, hminute,
    after_cons, readSeconds_chars, readOffset_charsOf, Option.bind_eq_bind, Option.bind_some]
  split <;> rfl

/-- The nearest millisecond of a fraction of at most nine digits, which are brought to
nanoseconds. -/
lemma milliseconds_of_le (s : WrittenSeconds) (hle : s.fraction.length ≤ 9) :
    milliseconds s.second s.fraction = s.second * 1000 + (s.nanos + 500000) / 1000000 := by
  have hpos : 0 < 10 ^ (9 - s.fraction.length) := by positivity
  have hscale : 10 ^ s.fraction.length * 10 ^ (9 - s.fraction.length) = 1000000000 := by
    rw [← Nat.pow_add, Nat.add_sub_cancel' hle]
  unfold milliseconds WrittenSeconds.nanos
  dsimp only
  rw [List.take_of_length_le hle, ← Nat.mul_div_mul_right _ _ hpos]
  generalize 10 ^ s.fraction.length = scale at *
  generalize 10 ^ (9 - s.fraction.length) = factor at *
  have hnumerator : (2 * 1000 * (s.second * scale + ofDigits s.fraction) + scale) * factor =
      2000 * (s.second * 1000000000 + ofDigits s.fraction * factor) + 1000000000 := by
    rw [← hscale]
    ring
  have hdenominator : 2 * scale * factor = 2000000000 := by
    rw [Nat.mul_assoc, hscale]
  rw [hnumerator, hdenominator]
  omega

/-- The nearest millisecond of a fraction of nine digits and more. What stands behind the ninth
place is less than a nanosecond. -/
lemma milliseconds_of_ge (s : WrittenSeconds) (hge : 9 ≤ s.fraction.length) :
    milliseconds s.second s.fraction = s.second * 1000 + (s.nanos + 500000) / 1000000 := by
  have hsplit : ofDigits s.fraction =
      ofDigits (s.fraction.take 9) * 10 ^ (s.fraction.length - 9) +
        ofDigits (s.fraction.drop 9) := by
    rw [← List.length_drop, ← ofDigits_append, List.take_append_drop]
  have hrest : ofDigits (s.fraction.drop 9) < 10 ^ (s.fraction.length - 9) := by
    rw [← List.length_drop]
    exact ofDigits_lt fun d hd => s.digits d (List.mem_of_mem_drop hd)
  have hscale : 10 ^ s.fraction.length = 1000000000 * 10 ^ (s.fraction.length - 9) := by
    rw [show 1000000000 = 10 ^ 9 by decide, ← Nat.pow_add, Nat.add_sub_cancel' hge]
  unfold milliseconds WrittenSeconds.nanos
  dsimp only
  rw [Nat.sub_eq_zero_of_le hge, Nat.pow_zero, Nat.mul_one, hsplit, hscale]
  generalize 10 ^ (s.fraction.length - 9) = factor at *
  generalize ofDigits (s.fraction.drop 9) = rest at *
  generalize ofDigits (s.fraction.take 9) = nano at *
  have hnumerator : 2 * 1000 * (s.second * (1000000000 * factor) + (nano * factor + rest)) +
      1000000000 * factor =
        2000 * rest + factor * (2000 * (s.second * 1000000000 + nano) + 1000000000) := by
    ring
  have hdenominator : 2 * (1000000000 * factor) = factor * 2000000000 := by ring
  have hsmall : 2000 * rest / factor < 2000 := by
    rw [Nat.div_lt_iff_lt_mul (by omega)]
    omega
  rw [hnumerator, hdenominator, ← Nat.div_div_eq_div_mul, Nat.add_mul_div_left _ _ (by omega)]
  generalize 2000 * rest / factor = small at hsmall ⊢
  omega

/-- The milliseconds of a minute as they are read. -/
lemma milliseconds_clock : milliseconds c.secondOfMinute c.fraction = c.millis := by
  unfold WrittenClock.millis WrittenClock.nano WrittenClock.secondOfMinute WrittenClock.fraction
  cases c.seconds with
  | none => decide
  | some s =>
    rcases Nat.le_total s.fraction.length 9 with hle | hge
    · exact milliseconds_of_le s hle
    · exact milliseconds_of_ge s hge

/-- A zone alone is not a time of day. -/
lemma readClock_zone (zone : Zone) : readClock zone.chars = none := by
  cases zone with
  | universal => decide
  | offset west hours minutes _ _ =>
    have hfield : ∀ sign rest, sign = '+' ∨ sign = '-' → field 2 0 24 (sign :: rest) = none := by
      rintro sign rest (rfl | rfl) <;> simp [field, digits?, digit?]
    unfold readClock Zone.chars
    rw [hfield _ _ (by cases west <;> decide)]
    rfl

/-- A date without a time of day is the instant of its start, when nothing stands behind it. -/
lemma ofText_of_date (hclock : w.clock = none) :
    ofText w.text = if w.zone = none then
      ofParts w.date.year w.date.month w.date.day midnight else none := by
  have hbehind : w.behindDate = Zone.charsOf w.zone := by
    rw [WrittenInstant.behindDate, hclock]
    rfl
  have hdate := readDate_text w.year w.behindDate
  simp only [ofText, WrittenInstant.text, String.toList_ofList, WrittenInstant.chars, hdate]
  rw [hbehind]
  cases w.zone with
  | none => simp [Zone.charsOf]
  | some zone =>
    obtain ⟨first, more, hfirst, hcases⟩ := zone.chars_cases
    have hnone := readClock_zone zone
    have hskip : zone.chars.dropWhile (fun c => Affinity.isSpace c || decide (c = 'T')) =
        zone.chars := by
      rw [hfirst]
      rcases hcases with rfl | rfl | rfl <;> rfl
    simp only [Zone.charsOf, Option.map_some, Option.getD_some, hskip]
    rw [hfirst] at hnone ⊢
    simp [hnone]

/-- A date with a time of day is the instant of both. -/
lemma ofText_of_clock (hclock : w.clock = some c) :
    ofText w.text = (readClock (c.chars ++ Zone.charsOf w.zone)).bind
      (ofParts w.date.year w.date.month w.date.day) := by
  obtain ⟨d, more, hd, hhour⟩ := Calendar.padded_cases 2 c.hour
  have hfirst : c.chars ++ Zone.charsOf w.zone = digitChar d ::
      (more ++ ':' :: ((padded 2 c.minute).toList ++ c.secondsChars) ++ Zone.charsOf w.zone) := by
    rw [WrittenClock.chars, hhour]
    rfl
  have hchars : w.text.toList =
      w.date.text.toList ++ c.separator :: (c.chars ++ Zone.charsOf w.zone) := by
    rw [WrittenInstant.text, String.toList_ofList, WrittenInstant.chars,
      WrittenInstant.behindDate, hclock]
    rfl
  have hseparator : c.separator = ' ' ∨ c.separator = 'T' := by
    unfold WrittenClock.separator
    cases c.joined <;> decide
  rw [hfirst] at hchars ⊢
  exact ofText_behind w.year hseparator hd hchars

/-- A written instant is the instant of its date and of the time of day behind it, when its zone
fits. -/
lemma ofText_eq_some_iff {text : String} :
    ofText w.text = some text ↔ w.ZoneFits ∧
      ofParts w.date.year w.date.month w.date.day w.reading = some text := by
  unfold WrittenInstant.reading WrittenInstant.ZoneFits
  cases hclock : w.clock with
  | none =>
    rw [ofText_of_date w hclock]
    cases w.zone with
    | none => simp
    | some zone => simp
  | some c =>
    rw [ofText_of_clock c w hclock, readClock_chars]
    split
    · next hnear =>
      rw [Option.bind_some]
      exact ⟨fun h => ⟨⟨fun hnone => absurd hnone (Option.some_ne_none c), hnear⟩, h⟩, fun h => h.2⟩
    · next hfar =>
      rw [Option.bind_none]
      exact iff_of_false (Option.some_ne_none text).symm fun h => hfar h.1.2

/-- The time of day of a written instant, in milliseconds behind its date. -/
lemma millis_eq :
    w.millis = Date.dayNumber w.date.year w.date.month w.date.day * 86400000 +
      ((w.reading.hour * 3600000 + w.reading.minute * 60000 +
        milliseconds w.reading.second w.reading.fraction : Nat) : Int) - w.offset * 60000 := by
  unfold WrittenInstant.millis WrittenInstant.unixSeconds WrittenInstant.nano
    WrittenInstant.reading Date.toDays
  cases w.clock with
  | none =>
    have hzero : milliseconds 0 [] = 0 := by decide
    simp only [midnight, hzero, Option.map_none, Option.getD_none]
    omega
  | some c =>
    have hsecond : c.second = c.hour * 3600 + c.minute * 60 + c.secondOfMinute := rfl
    simp only [milliseconds_clock, Option.map_some, Option.getD_some, hsecond, WrittenClock.millis]
    omega

/-- The time of day that is read is one of a day, and its seconds may be those of a whole minute. -/
lemma reading_bounds :
    w.reading.hour < 24 ∧ w.reading.minute < 60 ∧
      milliseconds w.reading.second w.reading.fraction ≤ 60000 := by
  unfold WrittenInstant.reading
  cases w.clock with
  | none =>
    show 0 < 24 ∧ 0 < 60 ∧ milliseconds 0 [] ≤ 60000
    decide
  | some c =>
    refine ⟨c.hour_lt, c.minute_lt, ?_⟩
    rw [milliseconds_clock, WrittenClock.millis]
    have hsecond := c.secondOfMinute_lt
    have hnano := c.nano_lt
    omega

/-- The offset of a zone that fits is read, unless it is zero. -/
lemma reading_offset (hzone : w.clock = none → w.zone = none) :
    w.reading.offset = if w.offset = 0 then none else some w.offset := by
  unfold WrittenInstant.reading WrittenInstant.offset
  cases hclock : w.clock with
  | none =>
    rw [hzone hclock]
    rfl
  | some c =>
    cases w.zone with
    | none => rfl
    | some zone => by_cases hzero : zone.minutes = 0 <;> simp [Option.filter, hzero]

end Reading

section Capped

open Date

variable {year : Int} {month day : Nat}

/-- A time of day that rounds up to a whole minute is written as the last millisecond of the minute,
and at the end of a day past the 28th as the last one of the next day. -/
lemma ofParts_of_whole {hour minute second : Nat} {fraction : List Nat} {m : Int}
    (hday : IsDay year month day) (hyear : 0 ≤ year ∧ year ≤ 9999) (hhour : hour < 24)
    (hminute : minute < 60) (hms : milliseconds second fraction = 60000)
    (hm : m = dayNumber year month day * 86400000 +
      ((hour * 3600000 + minute * 60000 + 60000 : Nat) : Int))
    (hrepresented : isRepresented m = true) :
    ∃ s, ofParts year month day ⟨hour, minute, second, fraction, none⟩ = some s ∧
      ofMilliseconds (if 28 < day ∧ hour = 23 ∧ minute = 59 then m + 86399999 else m - 1) =
        some s := by
  have hyears : -4713 ≤ year := by omega
  have hparts : ∀ date : Int × Nat × Nat,
      date = (if 28 < day then partsOfDays (m.fdiv 86400000) else (year, month, day)) →
        ofParts year month day ⟨hour, minute, second, fraction, none⟩ =
          some (layout date.1 date.2.1 date.2.2 hour minute 59999) := by
    rintro date rfl
    simp only [ofParts, if_pos hyears, hms, ← hm, hrepresented, if_true]
    rfl
  refine ⟨_, hparts _ rfl, ?_⟩
  by_cases hover : 28 < day ∧ hour = 23 ∧ minute = 59
  · -- the day of the rounded time is the next one
    obtain ⟨hlate, rfl, rfl⟩ := hover
    have hnext : m.fdiv 86400000 = dayNumber year month day + 1 := by
      rw [Int.fdiv_eq_ediv_of_nonneg _ (by decide)]
      omega
    obtain ⟨hday', hnumber⟩ := isDay_partsOfDays (m.fdiv 86400000)
    have hyear' := (year_bounds_iff hday').2 <| by
      have hbounds := (year_bounds_iff hday).1 hyear
      have hlast := (isRepresented_iff.1 hrepresented).2
      unfold epochOffset at hlast
      rw [hnumber, hnext]
      omega
    rw [if_pos ⟨hlate, rfl, rfl⟩, if_pos hlate,
      ← ofMilliseconds_eq hday' hyear' hhour hminute (show 59999 < 60000 by decide), hnumber]
    congr 1
    omega
  · have hday' : (if 28 < day then partsOfDays (m.fdiv 86400000) else (year, month, day)) =
        (year, month, day) := by
      split
      · next hlate =>
        have hsame : m.fdiv 86400000 = dayNumber year month day := by
          rw [Int.fdiv_eq_ediv_of_nonneg _ (by decide)]
          omega
        rw [hsame, partsOfDays_dayNumber hday]
      · rfl
    rw [if_neg hover, hday',
      ← ofMilliseconds_eq hday hyear hhour hminute (show 59999 < 60000 by decide)]
    congr 1
    omega

end Capped

section Kept

variable {w : WrittenInstant} {text : String}

/-- An offset that is not zero is taken off the nearest millisecond. -/
lemma ofParts_of_offset (hzone : w.clock = none → w.zone = none) (hoffset : w.offset ≠ 0) :
    ofParts w.date.year w.date.month w.date.day w.reading = ofMilliseconds w.millis := by
  have hyears : -4713 ≤ w.date.year := by
    have := w.year
    omega
  have hreading : w.reading.offset = some w.offset := by
    rw [reading_offset w hzone, if_neg hoffset]
  simp only [ofParts, if_pos hyears, hreading, millis_eq]

/-- A time of day without an offset is written when its nearest millisecond is represented. -/
lemma isRepresented_of_ofParts (hzone : w.clock = none → w.zone = none) (hoffset : w.offset = 0)
    (h : ofParts w.date.year w.date.month w.date.day w.reading = some text) :
    isRepresented w.millis = true := by
  have hreading : w.reading.offset = none := by rw [reading_offset w hzone, if_pos hoffset]
  have hmillis := millis_eq w
  rw [hoffset, Int.zero_mul, Int.sub_zero] at hmillis
  simp only [ofParts, hreading, ← hmillis] at h
  split at h
  · split at h
    · assumption
    · cases h
  · cases h

/-- A minute is rounded up to in its last half millisecond. -/
lemma milliseconds_reading_iff :
    milliseconds w.reading.second w.reading.fraction = 60000 ↔
      ∃ c ∈ w.clock, c.secondOfMinute = 59 ∧ 999500000 ≤ c.nano := by
  unfold WrittenInstant.reading
  cases w.clock with
  | none => simp [midnight, milliseconds, ofDigits]
  | some c =>
    have hsecond := c.secondOfMinute_lt
    have hnano := c.nano_lt
    simp only [milliseconds_clock, WrittenClock.millis, Option.mem_some_iff, exists_eq_left']
    omega

/-- The overflow, by what is read. -/
lemma overflows_iff : w.Overflows ↔ w.offset = 0 ∧
    milliseconds w.reading.second w.reading.fraction = 60000 ∧
      28 < w.date.day ∧ w.reading.hour = 23 ∧ w.reading.minute = 59 := by
  rw [milliseconds_reading_iff]
  unfold WrittenInstant.Overflows WrittenInstant.reading
  cases w.clock with
  | none => simp
  | some c =>
    simp only [Option.mem_some_iff, exists_eq_left']
    tauto

/-- What a written instant that is represented is written as. -/
lemma exists_ofParts (hzone : w.clock = none → w.zone = none)
    (hrepresented : isRepresented w.millis = true) :
    ∃ m text, ofParts w.date.year w.date.month w.date.day w.reading = some text ∧
      ofMilliseconds m = some text ∧
      (w.Overflows ∧ m = w.millis + 86399999 ∨
        ¬w.Overflows ∧ (m = w.millis ∨ m = w.millis - 1 ∧ 999500000 ≤ w.nano)) := by
  rw [overflows_iff]
  by_cases hoffset : w.offset = 0
  · have hreading : w.reading.offset = none := by rw [reading_offset w hzone, if_pos hoffset]
    have hclock : w.reading = ⟨w.reading.hour, w.reading.minute, w.reading.second,
        w.reading.fraction, none⟩ := by
      rw [← hreading]
    have hmillis := millis_eq w
    rw [hoffset, Int.zero_mul, Int.sub_zero] at hmillis
    obtain ⟨hhour, hminute, hms⟩ := reading_bounds w
    rw [hclock]
    rcases Nat.lt_or_eq_of_le hms with hbelow | hwhole
    · obtain ⟨text, hparts, htext⟩ := ofParts_eq w.date.isDay w.year hhour hminute hbelow
      rw [← hmillis] at htext
      exact ⟨w.millis, text, hparts, htext, .inr ⟨fun h => hbelow.ne h.2.1, .inl rfl⟩⟩
    · obtain ⟨c, hc, -, hnano⟩ := milliseconds_reading_iff.1 hwhole
      have hup : 999500000 ≤ w.nano := by
        rwa [WrittenInstant.nano, hc]
      rw [hwhole] at hmillis
      obtain ⟨text, hparts, htext⟩ := ofParts_of_whole w.date.isDay w.year hhour hminute hwhole
        hmillis hrepresented
      by_cases hover : 28 < w.date.day ∧ w.reading.hour = 23 ∧ w.reading.minute = 59
      · rw [if_pos hover] at htext
        exact ⟨_, text, hparts, htext, .inl ⟨⟨hoffset, hwhole, hover⟩, rfl⟩⟩
      · rw [if_neg hover] at htext
        exact ⟨_, text, hparts, htext, .inr ⟨fun h => hover h.2.2, .inr ⟨rfl, hup⟩⟩⟩
  · obtain ⟨text, htext⟩ : ∃ text, ofMilliseconds w.millis = some text := by
      simp only [ofMilliseconds, hrepresented, if_true]
      exact ⟨_, rfl⟩
    refine ⟨w.millis, text, ?_, htext, .inr ⟨fun h => hoffset h.1, .inl rfl⟩⟩
    rw [ofParts_of_offset hzone hoffset, htext]

/-- A written instant is compared with others when its zone fits and its nearest millisecond is
represented. -/
theorem exists_ofText_iff :
    (∃ text, ofText w.text = some text) ↔ w.ZoneFits ∧ isRepresented w.millis = true := by
  constructor
  · rintro ⟨text, htext⟩
    obtain ⟨hfits, hparts⟩ := (ofText_eq_some_iff w).1 htext
    refine ⟨hfits, ?_⟩
    by_cases hoffset : w.offset = 0
    · exact isRepresented_of_ofParts hfits.1 hoffset hparts
    · rw [ofParts_of_offset hfits.1 hoffset] at hparts
      by_contra hnot
      rw [ofMilliseconds, if_neg hnot] at hparts
      cases hparts
  · rintro ⟨hfits, hrepresented⟩
    obtain ⟨m, text, hparts, -⟩ := exists_ofParts hfits.1 hrepresented
    exact ⟨text, (ofText_eq_some_iff w).2 ⟨hfits, hparts⟩⟩

end Kept

end Instant

end TableTail
