import TableTail.Proofs.Calendar.DayNumber
import TableTail.Proofs.Calendar.WrittenInstant

/-!
# Layouts of timestamps

Which written instants are read as timestamps: a date alone, and a date with a time of day that
tells seconds (`Calendar.read?_of_tellsSeconds`). The offset of the zone is taken off, and nine
places of the fraction count. A time of day to the minute is not read, with `T` or a blank in front
of it and with any zone (`Calendar.read?_of_minute`).
-/

namespace TableTail

open Text

namespace Timestamp

/-- Any moment of the days that are represented has its timestamp. -/
lemma exists_ofUnix? {n : Int} {nano : Nat} (hn : -96465292 ≤ n / 86400 ∧ n / 86400 < 95026237)
    (hnano : nano < 1000000000) :
    ∃ t, ofUnix? n nano = some t ∧ t.unixSeconds = n ∧ t.nano = nano := by
  obtain ⟨year, month, day, hday, hnumber⟩ := Date.exists_isDay (n / 86400)
  have hfirst := Date.le_year_iff hday (-262143)
  have hend := Date.le_year_iff hday 262143
  rw [show Date.dayNumber (-262143) 1 1 = -96465292 by decide] at hfirst
  rw [show Date.dayNumber 262143 1 1 = 95026237 by decide] at hend
  have hyears : -262143 ≤ year ∧ year ≤ 262142 := by omega
  obtain ⟨date, hdate, hdays⟩ : ∃ date, Date.ofDays? (n / 86400) = some date ∧
      date.toDays = n / 86400 := by
    refine ⟨⟨year, month, day, hyears.1, hyears.2, hday.1, hday.2⟩, ?_, hnumber⟩
    rw [← hnumber, Date.ofDays?, Date.partsOfDays_dayNumber hday]
    exact dif_pos ⟨hyears, hday⟩
  have hsecond : (n % 86400).toNat < 86400 := by omega
  have hcivil : 1000000000 ≤ nano → (n % 86400).toNat % 60 = 59 := fun h => by omega
  refine ⟨⟨date, (n % 86400).toNat, nano, hsecond, by omega⟩, ?_, ?_, rfl⟩
  · rw [ofUnix?, Int.fdiv_eq_ediv_of_nonneg _ (by decide),
      Int.fmod_eq_emod_of_nonneg _ (by decide), hdate, Option.bind_some]
    exact dif_pos ⟨⟨hsecond, by omega⟩, hcivil⟩
  · show date.toDays * 86400 + ((n % 86400).toNat : Int) = n
    rw [hdays]
    omega

end Timestamp

namespace Calendar

variable {rest : List Char} {n width : Nat}

/-- A number that is printed in a width is read in exactly this width. -/
lemma readExact_padded (hpos : 0 < width) (hn : n < 10 ^ width) (hrest : StartsApart rest) :
    readExact width ((padded width n).toList ++ rest) = some (n, rest) := by
  have hlength := length_paddedDigits_of_lt hpos hn
  rw [readExact, readNumber_padded hlength.le hrest, Option.bind_some]
  simp [hlength, Nat.add_comm]

/-- Of digits that are too many for a width as many as fit are read. -/
lemma readNumber_long {ds : List Nat} (h : AreDigits ds) (hne : ds ≠ [])
    (hwidth : width ≤ ds.length) (hpos : 0 < width) (rest : List Char) :
    readNumber width (ds.map digitChar ++ rest) =
      some (ofDigits (ds.take width), (ds.drop width).map digitChar ++ rest) := by
  have hsplit : ds.map digitChar ++ rest =
      (ds.take width).map digitChar ++ ((ds.drop width).map digitChar ++ rest) := by
    rw [← List.append_assoc, ← List.map_append, List.take_append_drop]
  have hlength : ((ds.take width).map digitChar).length = width := by simpa using hwidth
  have htaken : AreDigits (ds.take width) := fun d hd => h d (List.mem_of_mem_take hd)
  have hall : ((ds.take width).map digitChar).takeWhile isDigit =
      (ds.take width).map digitChar := by
    simpa using takeWhile_isDigit htaken (show StartsApart [] from nofun) 0
  obtain ⟨d, more, hd⟩ : ∃ d more, ds.take width = d :: more := by
    refine List.exists_cons_of_ne_nil fun hnil => ?_
    rcases List.take_eq_nil_iff.1 hnil with hzero | hnil
    · exact hpos.ne' hzero
    · exact hne hnil
  unfold readNumber
  simp only [hsplit, List.take_left' hlength, hall, digits?_map_digitChar htaken, hlength,
    List.drop_left' hlength]
  rw [hd]

/-- A fraction is read in nanoseconds, whatever the number of its places. -/
lemma readFraction_written (s : WrittenSeconds) (zone : Option Zone) :
    readFraction (s.fractionChars ++ Zone.charsOf zone) = some (s.nanos, Zone.charsOf zone) := by
  have hapart := Zone.startsApart_charsOf zone
  unfold WrittenSeconds.fractionChars
  split
  · next hnone =>
    have hzero : s.nanos = 0 := by simp [WrittenSeconds.nanos, hnone, ofDigits]
    rw [List.nil_append, hzero, readFraction]
    intro more heq
    exact Zone.head?_charsOf_ne (by decide) (by decide) (by decide) zone more heq
  · next hsome =>
    have hdigits : ∀ ds : List Nat, AreDigits ds →
        (ds.map digitChar ++ Zone.charsOf zone).dropWhile isDigit = Zone.charsOf zone := by
      intro ds hds
      induction ds with
      | nil =>
        cases hchars : Zone.charsOf zone with
        | nil => rfl
        | cons c more =>
          have hc : isDigit c = false := by
            rw [isDigit, hapart c (by rw [hchars]; rfl)]
            rfl
          exact List.dropWhile_cons_of_neg (by simp [hc])
      | cons d more ih =>
        rw [List.map_cons, List.cons_append,
          List.dropWhile_cons_of_pos (isDigit_digitChar (hds d (by simp)))]
        exact ih fun e he => hds e (by simp [he])
    have hread : readNumber 9 (s.fraction.map digitChar ++ Zone.charsOf zone) =
        some (ofDigits (s.fraction.take 9),
          (s.fraction.drop 9).map digitChar ++ Zone.charsOf zone) := by
      rcases Nat.le_total s.fraction.length 9 with hle | hle
      · rw [readNumber_map_digitChar s.digits hsome hle hapart, List.take_of_length_le hle,
          List.drop_of_length_le hle]
        rfl
      · exact readNumber_long s.digits hsome hle (by decide) _
    have hplaces : 9 - ((s.fraction.map digitChar ++ Zone.charsOf zone).length -
        ((s.fraction.drop 9).map digitChar ++ Zone.charsOf zone).length) =
          9 - s.fraction.length := by
      simp only [List.length_append, List.length_map, List.length_drop]
      omega
    have htail := hdigits (s.fraction.drop 9) fun d hd => s.digits d (List.mem_of_mem_drop hd)
    simp only [List.cons_append, readFraction, hread, Option.map_some, hplaces, htail]
    rfl

/-- Where no digit stands no number is read. -/
lemma readNumber_of_startsApart (h : StartsApart rest) : readNumber width rest = none := by
  have hnone : (rest.take width).takeWhile isDigit = [] := by
    simpa using takeWhile_isDigit (show AreDigits [] from nofun) h width
  unfold readNumber
  rw [hnone]
  rfl

/-- The offset of a zone is read as its minutes. -/
lemma readOffset_chars (zone : Zone) : readOffset zone.chars = some zone.minutes := by
  cases zone with
  | universal => rfl
  | offset west hours minutes hhours hminutes =>
    have hfirst := readExact_padded (show 0 < 2 by decide) (show hours < 10 ^ 2 by omega)
      (startsApart_cons (c := ':') rfl (padded 2 minutes).toList)
    have hlast := readExact_padded (show 0 < 2 by decide) (show minutes < 10 ^ 2 by omega)
      (show StartsApart [] from nofun)
    rw [List.append_nil] at hlast
    cases west with
    | true =>
      simp [Zone.chars, Zone.minutes, readOffset, hfirst, hlast, hhours, hminutes, -toList_padded]
    | false =>
      simp [Zone.chars, Zone.minutes, readOffset, hfirst, hlast, hhours, hminutes, -toList_padded]

/-- A character that begins no zone is not found there. -/
lemma expect_charsOf {c : Char} (hc : c ≠ 'Z' ∧ c ≠ '+' ∧ c ≠ '-') (zone : Option Zone) :
    expect c (Zone.charsOf zone) = none := by
  cases hchars : Zone.charsOf zone with
  | nil => rfl
  | cons first rest =>
    refine if_neg fun heq => ?_
    exact Zone.head?_charsOf_ne hc.1 hc.2.1 hc.2.2 zone rest (heq ▸ hchars)

/-- A fraction and a zone do not begin with a digit. -/
lemma startsApart_fractionChars (s : WrittenSeconds) (zone : Option Zone) :
    StartsApart (s.fractionChars ++ Zone.charsOf zone) := by
  unfold WrittenSeconds.fractionChars
  split
  · exact Zone.startsApart_charsOf zone
  · exact startsApart_cons rfl _

variable (c : WrittenClock) (zone : Option Zone)

/-- Seconds and a zone do not begin with a digit. -/
lemma startsApart_secondsChars : StartsApart (c.secondsChars ++ Zone.charsOf zone) := by
  unfold WrittenClock.secondsChars
  cases c.seconds with
  | none => exact Zone.startsApart_charsOf zone
  | some s => exact startsApart_cons rfl _

/-- A time of day without blanks is read up to the end when it tells seconds and no zone follows. -/
lemma readClock_chars :
    readClock (c.chars ++ Zone.charsOf zone) =
      if zone.isNone then c.seconds.map fun s => (c.hour, c.minute, s.second, s.nanos)
      else none := by
  have hhour := readField_padded (show 0 < 2 by decide)
    (show c.hour < 10 ^ 2 by have := c.hour_lt; omega) (startsApart_cons (c := ':') rfl ((padded 2 c.minute).toList ++
      (c.secondsChars ++ Zone.charsOf zone)))
  have hminute := readField_padded (show 0 < 2 by decide)
    (show c.minute < 10 ^ 2 by have := c.minute_lt; omega) (startsApart_secondsChars c zone)
  have hchars : c.chars ++ Zone.charsOf zone = (padded 2 c.hour).toList ++
      ':' :: ((padded 2 c.minute).toList ++ (c.secondsChars ++ Zone.charsOf zone)) := by
    simp only [WrittenClock.chars, List.append_assoc, List.cons_append]
  simp only [hchars, readClock, hhour, hminute, expect_cons, Option.bind_eq_bind, Option.bind_some]
  cases hseconds : c.seconds with
  | none =>
    have hnone : expect ':' (Zone.charsOf zone) = none := expect_charsOf (by decide) zone
    simp only [WrittenClock.secondsChars, hseconds, Option.map_none, Option.getD_none,
      List.nil_append, hnone, Option.bind_none, ite_self]
  | some s =>
    have hsecond := readField_padded (show 0 < 2 by decide)
      (show s.second < 10 ^ 2 by have := s.second_lt; omega) (startsApart_fractionChars s zone)
    simp only [WrittenClock.secondsChars, WrittenSeconds.chars, hseconds, Option.map_some,
      Option.getD_some, List.cons_append, List.append_assoc, expect_cons, Option.bind_some,
      hsecond, readFraction_written]
    cases zone with
    | none => rfl
    | some zone =>
      obtain ⟨first, more, hfirst, -⟩ := zone.chars_cases
      simp [Zone.charsOf, hfirst]

/-- The moment of a date and a time of day with seconds. -/
def stated? (date : Date) (c : WrittenClock) (s : WrittenSeconds) : Option Timestamp :=
  moment? date.year date.month date.day c.hour c.minute s.second s.nanos

/-- The moment of a date and a time of day that is read behind it up to the end. -/
lemma readClock_bind_moment? (date : Date) :
    ((readClock (c.chars ++ Zone.charsOf zone)).bind fun (hour, minute, second, nano) =>
        moment? date.year date.month date.day hour minute second nano) =
      if zone.isNone then c.seconds.bind (stated? date c) else none := by
  rw [readClock_chars]
  cases zone with
  | none => cases c.seconds <;> rfl
  | some zone => rfl

variable (w : WrittenInstant)

/-- What stands behind a date does not begin with a digit. -/
lemma startsApart_behindDate : StartsApart w.behindDate := by
  unfold WrittenInstant.behindDate WrittenClock.separator
  cases w.clock with
  | none => exact Zone.startsApart_charsOf w.zone
  | some c => cases hjoined : c.joined <;> simp [hjoined, startsApart_cons, digit?]

/-- The date of a written instant is read. -/
lemma readDate_chars :
    readDate w.chars = some ((w.date.year, w.date.month, w.date.day), w.behindDate) :=
  readDate_text w.date (startsApart_behindDate w)

/-- A zone is not a time of day. -/
lemma readClock_charsOf : readClock (trimStart (Zone.charsOf zone)) = none := by
  have htrim : trimStart (Zone.charsOf zone) = Zone.charsOf zone := by
    refine trimStart_eq_self fun c hc => ?_
    cases zone with
    | none => cases hc
    | some zone =>
      obtain ⟨first, more, hfirst, hcases⟩ := zone.chars_cases
      have hhead : (Zone.charsOf (some zone)).head? = some first := congrArg List.head? hfirst
      obtain rfl := Option.some.inj (hhead.symm.trans hc)
      rcases hcases with rfl | rfl | rfl <;> rfl
  rw [htrim, readClock, readField, htrim, readNumber_of_startsApart (Zone.startsApart_charsOf zone)]
  rfl

/-- A written instant is read in the layout with blanks when they are there, and no zone. -/
lemma readSpaced_chars :
    readSpaced w.chars = w.clock.bind fun c =>
      if c.joined then none
      else if w.zone.isNone then c.seconds.bind (stated? w.date c) else none := by
  simp only [readSpaced, readDate_chars, Option.bind_eq_bind, Option.bind_some,
    WrittenInstant.behindDate]
  cases w.clock with
  | none =>
    simp only [Option.map_none, Option.getD_none, List.nil_append, readClock_charsOf,
      Option.bind_none]
  | some c =>
    rw [Option.map_some, Option.getD_some, Option.bind_some, List.cons_append]
    cases hjoined : c.joined with
    | true =>
      have hletter : readField 2 ('T' :: (c.chars ++ Zone.charsOf w.zone)) = none :=
        readNumber_of_startsApart (startsApart_cons rfl _)
      have htrim : trimStart ('T' :: (c.chars ++ Zone.charsOf w.zone)) =
        'T' :: (c.chars ++ Zone.charsOf w.zone) := rfl
      simp [WrittenClock.separator, hjoined, htrim, readClock, hletter]
    | false =>
      have htrim : trimStart (' ' :: (c.chars ++ Zone.charsOf w.zone)) =
          c.chars ++ Zone.charsOf w.zone := by
        simp only [WrittenClock.chars, List.append_assoc]
        exact trimStart_padded 2 _ _
      simp only [WrittenClock.separator, hjoined, htrim, Bool.false_eq_true, if_false]
      exact readClock_bind_moment? c w.zone w.date

/-- A written instant is read in the layout with `T` when it is there, and no zone. -/
lemma readJoined_chars :
    readJoined w.chars = w.clock.bind fun c =>
      if c.joined then
        if w.zone.isNone then c.seconds.bind (stated? w.date c) else none
      else none := by
  simp only [readJoined, readDate_chars, Option.bind_eq_bind, Option.bind_some,
    WrittenInstant.behindDate]
  cases w.clock with
  | none =>
    have hnone : expect 'T' (Zone.charsOf w.zone) = none := expect_charsOf (by decide) w.zone
    simp only [Option.map_none, Option.getD_none, List.nil_append, hnone, Option.bind_none]
  | some c =>
    rw [Option.map_some, Option.getD_some, Option.bind_some, List.cons_append]
    cases hjoined : c.joined with
    | true =>
      simp only [WrittenClock.separator, hjoined, expect_cons, Option.bind_some, if_true]
      exact readClock_bind_moment? c w.zone w.date
    | false =>
      simp [WrittenClock.separator, hjoined, expect]

/-- The fields of a date are read in their widths. -/
lemma readExact_date : ∃ behindYear behindMonth,
    readExact 4 w.chars = some (w.date.year.toNat, '-' :: behindYear) ∧
      readExact 2 behindYear = some (w.date.month, '-' :: behindMonth) ∧
      readExact 2 behindMonth = some (w.date.day, w.behindDate) := by
  have hyear := w.year
  have hmonth := w.date.isDay.month
  have hday := w.date.day_le.trans (daysInMonth_le w.date.year w.date.month)
  have hyearText : Date.yearText w.date.year = padded 4 w.date.year.toNat := if_pos hyear
  have hchars : w.chars = (padded 4 w.date.year.toNat).toList ++
      '-' :: ((padded 2 w.date.month).toList ++
        '-' :: ((padded 2 w.date.day).toList ++ w.behindDate)) := by
    simp only [WrittenInstant.chars, Date.text, hyearText, String.toList_append, List.append_assoc,
      show "-".toList = ['-'] from rfl, List.cons_append, List.nil_append]
  refine ⟨_, _, ?_, readExact_padded (by decide) (by omega) (startsApart_cons rfl _),
    readExact_padded (by decide) (by omega) (startsApart_behindDate w)⟩
  rw [hchars]
  exact readExact_padded (by decide) (by omega) (startsApart_cons rfl _)

/-- Hours and minutes are read in their widths. -/
lemma readExact_clock : ∃ behindHour,
    readExact 2 (c.chars ++ Zone.charsOf zone) = some (c.hour, ':' :: behindHour) ∧
      readExact 2 behindHour = some (c.minute, c.secondsChars ++ Zone.charsOf zone) := by
  have hhour := c.hour_lt
  have hminute := c.minute_lt
  refine ⟨_, ?_, readExact_padded (by decide) (by omega) (startsApart_secondsChars c zone)⟩
  simp only [WrittenClock.chars, List.append_assoc, List.cons_append]
  exact readExact_padded (by decide) (by omega) (startsApart_cons rfl _)

/-- A written instant is read in the internet layout when it tells seconds and a zone. -/
lemma readInternet_chars :
    readInternet w.chars = w.clock.bind fun c => c.seconds.bind fun s => w.zone.bind fun zone =>
      (stated? w.date c s).bind fun t => t.minusMinutes? zone.minutes := by
  have hcast : (w.date.year.toNat : Int) = w.date.year := Int.toNat_of_nonneg w.year.1
  obtain ⟨behindYear, behindMonth, hyear, hmonth, hday⟩ := readExact_date w
  unfold readInternet
  dsimp only [Option.bind_eq_bind]
  rw [hyear, Option.bind_some, expect_cons, Option.bind_some, hmonth, Option.bind_some, expect_cons,
    Option.bind_some, hday, Option.bind_some, hcast]
  unfold WrittenInstant.behindDate
  cases w.clock with
  | none =>
    cases w.zone with
    | none => rfl
    | some zone =>
      obtain ⟨first, more, hfirst, hcases⟩ := zone.chars_cases
      rcases hcases with rfl | rfl | rfl
      all_goals simp [Zone.charsOf, hfirst]
  | some c =>
    obtain ⟨behindHour, hhour, hminute⟩ := readExact_clock c w.zone
    have hseparator : c.separator = 'T' ∨ c.separator = 't' ∨ c.separator = ' ' := by
      unfold WrittenClock.separator
      cases c.joined <;> decide
    simp only [Option.map_some, Option.getD_some, Option.bind_some, List.cons_append, hseparator,
      if_true, hhour, hminute, expect_cons]
    cases hseconds : c.seconds with
    | none =>
      have hnone : expect ':' (Zone.charsOf w.zone) = none := expect_charsOf (by decide) w.zone
      simp only [WrittenClock.secondsChars, hseconds, Option.map_none, Option.getD_none,
        List.nil_append, hnone, Option.bind_none]
    | some s =>
      have hsecond := readExact_padded (show 0 < 2 by decide)
        (show s.second < 10 ^ 2 by have := s.second_lt; omega) (startsApart_fractionChars s w.zone)
      simp only [WrittenClock.secondsChars, WrittenSeconds.chars, hseconds, Option.map_some,
        Option.getD_some, List.cons_append, List.append_assoc, expect_cons, Option.bind_some,
        hsecond, readFraction_written]
      cases w.zone with
      | none => rfl
      | some zone =>
        simp only [Zone.charsOf, Option.map_some, Option.getD_some, readOffset_chars,
          Option.bind_some]
        rfl

/-- A date alone is read. -/
lemma readDay_chars :
    readDay w.chars =
      if w.clock.isNone ∧ w.zone.isNone then some (Timestamp.startOfDay w.date) else none := by
  have hdate : Date.of? w.date.year w.date.month w.date.day = some w.date :=
    dif_pos ⟨⟨w.date.year_ge, w.date.year_le⟩, w.date.day_pos, w.date.day_le⟩
  simp only [readDay, readDate_chars, Option.bind_eq_bind, Option.bind_some,
    WrittenInstant.behindDate, hdate, Option.map_some]
  cases w.clock with
  | none =>
    cases hzone : w.zone with
    | none => rfl
    | some zone =>
      obtain ⟨first, more, hfirst, -⟩ := zone.chars_cases
      simp [Zone.charsOf, hfirst]
  | some c => rfl

/-- A date and a time of day with seconds have their moment. -/
lemma stated?_eq {s : WrittenSeconds} (hseconds : c.seconds = some s) (date : Date) :
    ∃ t, stated? date c s = some t ∧ t.unixSeconds = date.toDays * 86400 + (c.second : Nat) ∧
      t.nano = c.nano := by
  have hnano := s.nanos_lt
  have hhour := c.hour_lt
  have hminute := c.minute_lt
  have hsecond := s.second_lt
  have hdate : Date.of? date.year date.month date.day = some date :=
    dif_pos ⟨⟨date.year_ge, date.year_le⟩, date.day_pos, date.day_le⟩
  refine ⟨⟨date, c.hour * 3600 + c.minute * 60 + s.second, s.nanos, by omega, by omega⟩,
    ?_, ?_, ?_⟩
  · rw [stated?, moment?, if_neg (by omega), Timestamp.of?, if_pos ⟨hhour, hminute, hsecond⟩, hdate,
      Option.bind_some]
    exact dif_pos ⟨⟨by omega, by omega⟩, fun h => by omega⟩
  · simp only [Timestamp.unixSeconds, WrittenClock.second, WrittenClock.secondOfMinute, hseconds,
      Option.map_some, Option.getD_some]
  · simp only [WrittenClock.nano, hseconds, Option.map_some, Option.getD_some]

/-- A moment of the years 0 to 9999 has its moment behind any zone. -/
lemma minusMinutes?_eq {t : Timestamp} (zone : Zone) (hnano : t.nano < 1000000000)
    (hdays : -719528 ≤ t.unixSeconds / 86400 ∧ t.unixSeconds / 86400 < 2932897) :
    ∃ t', t.minusMinutes? zone.minutes = some t' ∧
      t'.unixSeconds = t.unixSeconds - zone.minutes * 60 ∧ t'.nano = t.nano := by
  have hzone := zone.minutes_bounds
  exact Timestamp.exists_ofUnix? (by omega) hnano

/-- A date alone, and a date with a time of day that tells seconds, are read as the moment. -/
theorem read?_of_tellsSeconds (hzone : w.clock = none → w.zone = none) (htells : w.TellsSeconds) :
    ∃ t, read? w.chars = some t ∧ t.unixSeconds = w.unixSeconds ∧ t.nano = w.nano := by
  rw [read?, readSpaced_chars, readJoined_chars, readInternet_chars, readDay_chars,
    WrittenInstant.unixSeconds, WrittenInstant.nano, WrittenInstant.offset]
  have hday := w.date.isDay
  cases hclock : w.clock with
  | none =>
    rw [hzone hclock]
    refine ⟨_, rfl, ?_, rfl⟩
    simp [Timestamp.startOfDay, Timestamp.unixSeconds]
  | some c =>
    obtain ⟨s, hseconds⟩ := Option.isSome_iff_exists.1 (htells c hclock)
    obtain ⟨t, hstated, hunix, hnano⟩ := stated?_eq c hseconds w.date
    cases hz : w.zone with
    | none =>
      refine ⟨t, ?_, by simpa using hunix, hnano⟩
      cases c.joined <;> simp [hseconds, hstated]
    | some zone =>
      have hsub : t.nano < 1000000000 := by
        rw [hnano]
        exact c.nano_lt
      have hdays : -719528 ≤ t.unixSeconds / 86400 ∧ t.unixSeconds / 86400 < 2932897 := by
        have hfirst := Date.le_year_iff hday 0
        have hend := Date.le_year_iff hday 10000
        have hday' : c.second < 86400 := c.second_lt
        rw [show Date.dayNumber 0 1 1 = -719528 by decide] at hfirst
        rw [show Date.dayNumber 10000 1 1 = 2932897 by decide] at hend
        have hyear := w.year
        unfold Date.toDays at hunix
        omega
      obtain ⟨t', hmoved, hunix', hnano'⟩ := minusMinutes?_eq zone hsub hdays
      refine ⟨t', ?_, by simpa [hunix] using hunix', hnano'.trans hnano⟩
      cases c.joined <;> simp [hseconds, hstated, hmoved]

/-- A date with a time of day to the minute is not read. -/
theorem read?_of_minute (htells : ¬w.TellsSeconds) : read? w.chars = none := by
  unfold WrittenInstant.TellsSeconds at htells
  push Not at htells
  obtain ⟨c, hclock, hseconds⟩ := htells
  have hnone : c.seconds = none := by simpa using hseconds
  rw [read?, readSpaced_chars, readJoined_chars, readInternet_chars, readDay_chars, hclock]
  simp [hnone]

end Calendar

end TableTail
