import Mathlib.Tactic.SplitIfs
import TableTail.Calendar.Reading
import TableTail.Proofs.Text.Numerals

/-!
# Timestamps and their texts

The text of a timestamp is read as this timestamp in any year, with any fraction of a second, and in
a leap second that is the last second of its minute (`Timestamp.IsRegular`); a leap second anywhere
else in a minute is read as the second after it (`read?_text`). So reading gives the timestamp that
was printed exactly when that is regular (`reread_eq_self_iff`), and whatever is read is regular
(`isRegular_of_read?`). Each part of the layout is read from what it is printed as, and a row of
digits ends at the first character that is none (`StartsApart`).
-/

namespace TableTail

namespace Timestamp

/-- A timestamp whose leap second, if it is in one, is the last second of its minute. -/
def IsRegular (t : Timestamp) : Prop := 1000000000 ≤ t.nano → t.second % 60 = 59

instance : DecidablePred IsRegular :=
  fun t => inferInstanceAs (Decidable (1000000000 ≤ t.nano → t.second % 60 = 59))

/-- What a timestamp is read back as: one with a leap second anywhere but at the end of a minute as
the second after it, any other one as it is. -/
def reread (t : Timestamp) : Timestamp :=
  if h : 1000000000 ≤ t.nano ∧ t.second % 60 ≠ 59 then
    ⟨t.date, t.second + 1, t.nano - 1000000000, by have := t.second_lt; omega,
      by have := t.nano_lt; omega⟩
  else t

/-- A timestamp is read back as itself exactly when it is regular. -/
theorem reread_eq_self_iff {t : Timestamp} : t.reread = t ↔ t.IsRegular := by
  unfold reread IsRegular
  split
  · next h =>
    refine ⟨fun heq => ?_, fun hregular => absurd (hregular h.1) h.2⟩
    have hsecond : t.second + 1 = t.second := congrArg Timestamp.second heq
    omega
  · next h => exact ⟨fun _ hnano => by_contra fun hsecond => h ⟨hnano, hsecond⟩, fun _ => rfl⟩

/-- A timestamp outside leap seconds is regular. -/
lemma isRegular_of_nano_lt {t : Timestamp} (h : t.nano < 1000000000) : t.IsRegular :=
  fun hnano => absurd h (by omega)

/-- What a timestamp is read back as is regular. -/
lemma isRegular_reread (t : Timestamp) : t.reread.IsRegular := by
  have hnano := t.nano_lt
  unfold reread
  split
  · exact isRegular_of_nano_lt (by simp only; omega)
  · next h => exact fun hleap => by_contra fun hlast => h ⟨hleap, hlast⟩

/-- A timestamp is printed like what it is read back as. -/
lemma text_reread (t : Timestamp) : t.reread.text = t.text := by
  unfold reread
  split
  · next h =>
    have hnano := t.nano_lt
    have hhour : (t.second + 1) / 3600 = t.second / 3600 := by omega
    have hminute : (t.second + 1) / 60 % 60 = t.second / 60 % 60 := by omega
    -- the second that the count holds is carried over to the seconds
    have hsecond : (t.second + 1) % 60 + (t.nano - 1000000000) / 1000000000 =
        t.second % 60 + t.nano / 1000000000 := by omega
    have hfraction : (t.nano - 1000000000) % 1000000000 = t.nano % 1000000000 := by omega
    rw [text, text, clockText, clockText, fractionText, fractionText, hhour, hminute, hsecond,
      hfraction]
  · rfl

/-- Clock readings make regular timestamps. -/
lemma isRegular_of_ofParts? {date : Date} {second nano : Nat} {t : Timestamp}
    (h : ofParts? date second nano = some t) : t.IsRegular := by
  unfold ofParts? at h
  split at h
  · next hparts => exact Option.some.inj h ▸ hparts.2
  · cases h

/-- So do calendar and clock readings. -/
lemma isRegular_of_of? {year : Int} {month day hour minute second nano : Nat} {t : Timestamp}
    (h : of? year month day hour minute second nano = some t) : t.IsRegular := by
  unfold of? at h
  split at h
  · obtain ⟨date, -, hparts⟩ := Option.bind_eq_some_iff.1 h
    exact isRegular_of_ofParts? hparts
  · cases h

/-- So does a number of seconds of Unix time. -/
lemma isRegular_of_ofUnix? {seconds : Int} {nano : Nat} {t : Timestamp}
    (h : ofUnix? seconds nano = some t) : t.IsRegular := by
  obtain ⟨date, -, hparts⟩ := Option.bind_eq_some_iff.1 h
  exact isRegular_of_ofParts? hparts

end Timestamp

namespace Calendar

open Text

/-- A text that does not go on with a digit. -/
def StartsApart (rest : List Char) : Prop := ∀ c ∈ rest.head?, digit? c = none

variable {ds : List Nat} {rest : List Char} {n width : Nat}

/-- A character that is no digit ends digits before it. -/
lemma startsApart_cons {c : Char} (h : digit? c = none) (rest : List Char) :
    StartsApart (c :: rest) := fun _ hc => Option.some.inj hc ▸ h

/-- Digits before what is no digit are taken together. -/
lemma takeWhile_isDigit (h : AreDigits ds) (hrest : StartsApart rest) (k : Nat) :
    (ds.map digitChar ++ rest.take k).takeWhile isDigit = ds.map digitChar := by
  induction ds with
  | nil =>
    cases rest with
    | nil => simp
    | cons c rest =>
      have hc : isDigit c = false := by rw [isDigit, hrest c rfl]; rfl
      cases k <;> simp [hc]
  | cons d more ih =>
    have hd : isDigit (digitChar d) = true := isDigit_digitChar (h d (by simp))
    simp only [List.map_cons, List.cons_append, List.takeWhile_cons, hd, if_true]
    rw [ih fun e he => h e (by simp [he])]

/-- Digits are read as their value, up to a width that they do not exceed. -/
theorem readNumber_map_digitChar (h : AreDigits ds) (hne : ds ≠ []) (hwidth : ds.length ≤ width)
    (hrest : StartsApart rest) :
    readNumber width (ds.map digitChar ++ rest) = some (ofDigits ds, rest) := by
  have htake : (ds.map digitChar ++ rest).take width =
      ds.map digitChar ++ rest.take (width - ds.length) := by
    rw [List.take_append, List.take_of_length_le (by simpa using hwidth), List.length_map]
  unfold readNumber
  simp only [htake, takeWhile_isDigit h hrest, digits?_map_digitChar h]
  cases ds with
  | nil => exact absurd rfl hne
  | cons d more => simp

/-- A number that is printed in a width is read in a width that it does not exceed. -/
lemma readNumber_padded {printed : Nat} (hwidth : (paddedDigits printed n).length ≤ width)
    (hrest : StartsApart rest) :
    readNumber width ((padded printed n).toList ++ rest) = some (n, rest) := by
  rw [toList_padded, readNumber_map_digitChar (areDigits_paddedDigits printed n)
    (paddedDigits_ne_nil printed n) hwidth hrest, ofDigits_paddedDigits]

/-- A number that is printed begins with a digit. -/
lemma padded_cases (width n : Nat) :
    ∃ d more, d < 10 ∧ (padded width n).toList = digitChar d :: more := by
  rw [toList_padded]
  cases hds : paddedDigits width n with
  | nil => exact absurd hds (paddedDigits_ne_nil width n)
  | cons d more => exact ⟨d, _, areDigits_paddedDigits width n d (by simp [hds]), rfl⟩

/-- A number that is printed has no blank in front. -/
lemma trimStart_padded (width n : Nat) (rest : List Char) :
    trimStart ((padded width n).toList ++ rest) = (padded width n).toList ++ rest := by
  obtain ⟨d, more, hd, htext⟩ := padded_cases width n
  rw [htext]
  exact trimStart_of_not_isBlank (isBlank_digitChar hd)

/-- A number that is printed in a width is read as a field of this width. -/
lemma readField_padded (hpos : 0 < width) (hn : n < 10 ^ width) (hrest : StartsApart rest) :
    readField width ((padded width n).toList ++ rest) = some (n, rest) := by
  rw [readField, trimStart_padded]
  exact readNumber_padded (length_paddedDigits_of_lt hpos hn).le hrest

/-- The expected character is there. -/
@[simp] lemma expect_cons (c : Char) (rest : List Char) : expect c (c :: rest) = some rest :=
  if_pos rfl

/-- The text of a year is read as this year. -/
lemma readYear_yearText (y : Int) (hrest : StartsApart rest) :
    readYear ((Date.yearText y).toList ++ rest) = some (y, rest) := by
  unfold Date.yearText
  split
  · next hy =>
    have hlength : (paddedDigits 4 y.toNat).length = 4 :=
      length_paddedDigits_of_lt (by decide) (by omega)
    have hnumber := readNumber_padded hlength.le hrest
    have hyear : ((y.toNat : Nat) : Int) = y := by omega
    obtain ⟨d, more, hd, htext⟩ := padded_cases 4 y.toNat
    have hplus : digitChar d ≠ '+' := digitChar_ne hd (by decide)
    have hminus : digitChar d ≠ '-' := digitChar_ne hd (by decide)
    rw [readYear, trimStart_padded]
    rw [htext, List.cons_append] at hnumber ⊢
    split
    · next heq => exact absurd (List.cons.inj heq).1 hminus
    · next heq => exact absurd (List.cons.inj heq).1 hplus
    · simp only [hnumber, Option.map_some, hyear]
  · have hnumber : ∀ more : List Char, more = (padded 4 y.natAbs).toList ++ rest →
        readNumber more.length more = some (y.natAbs, rest) := by
      rintro _ rfl
      refine readNumber_padded ?_ hrest
      rw [List.length_append, toList_padded, List.length_map]
      exact Nat.le_add_right _ _
    split
    · next hneg =>
      have hyear : -(y.natAbs : Int) = y := by omega
      have htrim : ∀ more, trimStart ('-' :: more) = '-' :: more := fun _ => rfl
      rw [String.toList_append, List.append_assoc]
      simp only [show "-".toList = ['-'] from rfl, List.singleton_append, readYear, htrim,
        hnumber _ rfl, Option.map_some, hyear]
    · next hneg =>
      have hyear : (y.natAbs : Int) = y := by omega
      have htrim : ∀ more, trimStart ('+' :: more) = '+' :: more := fun _ => rfl
      rw [String.toList_append, List.append_assoc]
      simp only [show "+".toList = ['+'] from rfl, List.singleton_append, readYear, htrim,
        hnumber _ rfl, Option.map_some, hyear]

/-- The days of a month have at most two digits. -/
lemma daysInMonth_le (y : Int) (m : Nat) : daysInMonth y m ≤ 31 := by
  unfold daysInMonth
  split_ifs <;> decide

/-- A month that has days has at most two digits. -/
lemma month_le_of_daysInMonth_pos {y : Int} {m : Nat} (h : 0 < daysInMonth y m) : m ≤ 12 := by
  unfold daysInMonth at h
  split_ifs at h <;> omega

/-- The text of a date is read as its parts. -/
theorem readDate_text (d : Date) (hrest : StartsApart rest) :
    readDate (d.text.toList ++ rest) = some ((d.year, d.month, d.day), rest) := by
  have hday : d.day < 10 ^ 2 := by
    have := d.day_le.trans (daysInMonth_le d.year d.month)
    omega
  have hmonth : d.month < 10 ^ 2 := by
    have := month_le_of_daysInMonth_pos (d.day_pos.trans d.day_le)
    omega
  have hyear := readYear_yearText d.year (startsApart_cons (c := '-') rfl
    ((padded 2 d.month).toList ++ ('-' :: ((padded 2 d.day).toList ++ rest))))
  have hmonth := readField_padded (by decide) hmonth (startsApart_cons (c := '-') rfl
    ((padded 2 d.day).toList ++ rest))
  have hday := readField_padded (by decide) hday hrest
  simp only [Date.text, String.toList_append, List.append_assoc, show "-".toList = ['-'] from rfl,
    List.cons_append, List.nil_append, readDate, hyear, hmonth, hday, expect_cons,
    Option.bind_eq_bind, Option.bind_some]

/-- A fraction of some places is read in nanoseconds. -/
lemma readFraction_padded {places : Nat} (hpos : 0 < places) (hle : places ≤ 9)
    (hn : n < 10 ^ places) :
    readFraction ('.' :: (padded places n).toList) = some (n * 10 ^ (9 - places), []) := by
  have hlength := length_paddedDigits_of_lt hpos hn
  have hread := readNumber_padded (hlength.le.trans hle) (show StartsApart [] from nofun)
  rw [List.append_nil] at hread
  simp only [readFraction, hread, Option.map_some]
  rw [toList_padded, List.length_map, hlength]
  simp

/-- The fraction of a second is printed in three, six or nine places, unless it is zero. -/
lemma fractionText_cases (nano : Nat) :
    (nano % 1000000000 = 0 ∧ (Timestamp.fractionText nano).toList = []) ∨
      ∃ places n, (places = 3 ∨ places = 6 ∨ places = 9) ∧
        nano % 1000000000 = n * 10 ^ (9 - places) ∧
        (Timestamp.fractionText nano).toList = '.' :: (padded places n).toList := by
  have hpoint : ∀ places n, ("." ++ padded places n).toList = '.' :: (padded places n).toList := by
    intro places n
    rw [String.toList_append]
    rfl
  unfold Timestamp.fractionText
  simp only
  split_ifs with hzero hmilli hmicro
  · exact .inl ⟨hzero, rfl⟩
  · exact .inr ⟨3, nano % 1000000000 / 1000000, by decide, by omega, hpoint 3 _⟩
  · exact .inr ⟨6, nano % 1000000000 / 1000, by decide, by omega, hpoint 6 _⟩
  · exact .inr ⟨9, nano % 1000000000, by decide, by omega, hpoint 9 _⟩

/-- The fraction of a second is read in nanoseconds. -/
lemma readFraction_fractionText (nano : Nat) :
    readFraction (Timestamp.fractionText nano).toList = some (nano % 1000000000, []) := by
  have hwhole : nano % 1000000000 < 1000000000 := Nat.mod_lt _ (by decide)
  rcases fractionText_cases nano with ⟨hzero, hnone⟩ | ⟨places, n, hplaces, hn, hsome⟩
  · rw [hnone, hzero]
    rfl
  · rw [hsome]
    rw [hn] at hwhole ⊢
    rcases hplaces with rfl | rfl | rfl
    all_goals exact readFraction_padded (by decide) (by decide) (by omega)

/-- A fraction does not begin with a digit. -/
lemma startsApart_fractionText (nano : Nat) :
    StartsApart (Timestamp.fractionText nano).toList := by
  rcases fractionText_cases nano with ⟨-, hnone⟩ | ⟨places, n, -, -, hsome⟩
  · rw [hnone]
    exact fun c hc => nomatch hc
  · rw [hsome]
    exact startsApart_cons rfl _

/-- The text of a time of day is read as its parts. -/
theorem readClock_clockText (t : Timestamp) :
    readClock t.clockText.toList = some (t.second / 3600, t.second / 60 % 60,
      t.second % 60 + t.nano / 1000000000, t.nano % 1000000000) := by
  have hsecond := t.second_lt
  have hnano := t.nano_lt
  have hhour := readField_padded (by decide) (show t.second / 3600 < 10 ^ 2 by omega)
    (startsApart_cons (c := ':') rfl ((padded 2 (t.second / 60 % 60)).toList ++
      (':' :: ((padded 2 (t.second % 60 + t.nano / 1000000000)).toList ++
        (Timestamp.fractionText t.nano).toList))))
  have hminute := readField_padded (by decide) (show t.second / 60 % 60 < 10 ^ 2 by omega)
    (startsApart_cons (c := ':') rfl ((padded 2 (t.second % 60 + t.nano / 1000000000)).toList ++
      (Timestamp.fractionText t.nano).toList))
  have hsecond := readField_padded (by decide)
    (show t.second % 60 + t.nano / 1000000000 < 10 ^ 2 by omega) (startsApart_fractionText t.nano)
  simp only [Timestamp.clockText, String.toList_append, List.append_assoc,
    show ":".toList = [':'] from rfl, List.cons_append, List.nil_append, readClock, hhour, hminute,
    hsecond, expect_cons, readFraction_fractionText, Option.bind_eq_bind, Option.bind_some,
    List.isEmpty_nil, if_true]

/-- The parts of a regular timestamp, as they are printed, make it up. -/
lemma moment?_self {t : Timestamp} (h : t.IsRegular) :
    moment? t.date.year t.date.month t.date.day (t.second / 3600) (t.second / 60 % 60)
      (t.second % 60 + t.nano / 1000000000) (t.nano % 1000000000) = some t := by
  have hsecond := t.second_lt
  have hnano := t.nano_lt
  have hdate : Date.of? t.date.year t.date.month t.date.day = some t.date := by
    rw [Date.of?, dif_pos ⟨⟨t.date.year_ge, t.date.year_le⟩, t.date.day_pos, t.date.day_le⟩]
  have hself : Timestamp.ofParts? t.date t.second t.nano = some t := by
    rw [Timestamp.ofParts?, dif_pos ⟨⟨t.second_lt, t.nano_lt⟩, h⟩]
  by_cases hleap : 1000000000 ≤ t.nano
  · have hlast := h hleap
    have hsixty : t.second % 60 + t.nano / 1000000000 = 60 := by omega
    have hparts : t.second / 3600 * 3600 + t.second / 60 % 60 * 60 + 59 = t.second := by omega
    have hwhole : 1000000000 + t.nano % 1000000000 = t.nano := by omega
    rw [moment?, if_pos hsixty, Timestamp.of?, if_pos (by omega), hdate, Option.bind_some, hparts,
      hwhole, hself]
  · have hzero : t.nano / 1000000000 = 0 := by omega
    have hparts : t.second / 3600 * 3600 + t.second / 60 % 60 * 60 + t.second % 60 = t.second := by
      omega
    have hwhole : t.nano % 1000000000 = t.nano := by omega
    rw [hzero, Nat.add_zero, moment?, if_neg (by omega), Timestamp.of?, if_pos (by omega), hdate,
      Option.bind_some, hparts, hwhole, hself]

/-- The text of a regular timestamp denotes this timestamp. -/
lemma read?_text_of_isRegular {t : Timestamp} (h : t.IsRegular) :
    read? t.text.toList = some t := by
  have hdate := readDate_text t.date (startsApart_cons (c := ' ') rfl t.clockText.toList)
  have htrim : trimStart (' ' :: t.clockText.toList) = t.clockText.toList := by
    rw [Timestamp.clockText, String.toList_append, String.toList_append, String.toList_append,
      String.toList_append, String.toList_append, List.append_assoc, List.append_assoc,
      List.append_assoc, List.append_assoc, trimStart, List.dropWhile_cons_of_pos rfl]
    exact trimStart_padded 2 _ _
  have hspaced : readSpaced t.text.toList = some t := by
    simp only [Timestamp.text, String.toList_append, List.append_assoc,
      show " ".toList = [' '] from rfl, List.singleton_append, readSpaced, hdate, htrim,
      readClock_clockText, moment?_self h, Option.bind_eq_bind, Option.bind_some]
  rw [read?, hspaced]
  rfl

/-- The text of a timestamp denotes what the timestamp is read back as, which has the same text. -/
theorem read?_text (t : Timestamp) : read? t.text.toList = some t.reread := by
  rw [← t.text_reread]
  exact read?_text_of_isRegular t.isRegular_reread

section Regular

variable {s : List Char} {t : Timestamp}

/-- Readings that may have second 60 make regular timestamps. -/
lemma isRegular_of_moment? {year : Int} {month day hour minute second nano : Nat}
    (h : moment? year month day hour minute second nano = some t) : t.IsRegular := by
  unfold moment? at h
  split at h <;> exact Timestamp.isRegular_of_of? h

/-- What is made of a part that was read is regular if it is for every part. -/
lemma isRegular_of_bind {α : Type} {part : Option α} {f : α → Option Timestamp}
    (h : part.bind f = some t) (hf : ∀ a t, f a = some t → t.IsRegular) : t.IsRegular := by
  obtain ⟨a, -, ha⟩ := Option.bind_eq_some_iff.1 h
  exact hf a t ha

/-- What is read in the internet layout is regular: it is made from its Unix time. -/
lemma isRegular_of_readInternet (h : readInternet s = some t) : t.IsRegular := by
  unfold readInternet at h
  -- year and month, with a hyphen behind each of them
  iterate 4
    refine isRegular_of_bind h ?_
    clear h
    intro _ t h
  refine isRegular_of_bind h ?_
  clear h
  rintro ⟨day, rest⟩ t h
  cases rest with
  | nil => cases h
  | cons c rest =>
    simp only at h
    split at h
    · -- the readings of the clock, the offset, and the moment without it
      iterate 8
        refine isRegular_of_bind h ?_
        clear h
        intro _ t h
      exact Timestamp.isRegular_of_ofUnix? h
    · cases h

/-- Whatever a text denotes is regular. -/
theorem isRegular_of_read? (h : read? s = some t) : t.IsRegular := by
  have hcases : readSpaced s = some t ∨ readJoined s = some t ∨ readInternet s = some t ∨
      readDay s = some t := by
    simp only [read?, Option.orElse_eq_orElse, Option.orElse_eq_or, Option.or_eq_some_iff] at h
    tauto
  rcases hcases with hspaced | hjoined | hinternet | hday
  · exact isRegular_of_bind hspaced fun _ _ hclock =>
      isRegular_of_bind hclock fun _ _ hmoment => isRegular_of_moment? hmoment
  · exact isRegular_of_bind hjoined fun _ _ hmark => isRegular_of_bind hmark fun _ _ hclock =>
      isRegular_of_bind hclock fun _ _ hmoment => isRegular_of_moment? hmoment
  · exact isRegular_of_readInternet hinternet
  · refine isRegular_of_bind hday fun _ _ hstart => ?_
    simp only at hstart
    split at hstart
    · obtain ⟨date, -, rfl⟩ := Option.map_eq_some_iff.1 hstart
      exact Timestamp.isRegular_of_nano_lt (by decide : (0 : Nat) < 1000000000)
    · cases hstart

end Regular

/-- The text of a time of day ends in a digit. -/
lemma clockText_ends (t : Timestamp) :
    ∃ front ds, t.clockText.toList = front ++ ds.map digitChar ∧ AreDigits ds ∧ ds ≠ [] := by
  rw [Timestamp.clockText, String.toList_append]
  rcases fractionText_cases t.nano with ⟨-, hnone⟩ | ⟨places, n, -, -, hsome⟩
  · rw [hnone, List.append_nil, String.toList_append, toList_padded]
    exact ⟨_, _, rfl, areDigits_paddedDigits _ _, paddedDigits_ne_nil _ _⟩
  · rw [hsome, ← List.singleton_append, ← List.append_assoc, toList_padded]
    exact ⟨_, _, rfl, areDigits_paddedDigits _ _, paddedDigits_ne_nil _ _⟩

/-- The text of a year has no blank in front. -/
lemma yearText_cases (y : Int) :
    ∃ c more, (Date.yearText y).toList = c :: more ∧ isBlank c = false := by
  obtain ⟨d, more, hd, htext⟩ := padded_cases 4 y.toNat
  unfold Date.yearText
  split_ifs
  · exact ⟨_, more, htext, isBlank_digitChar hd⟩
  all_goals
    rw [String.toList_append]
    exact ⟨_, _, rfl, rfl⟩

/-- The text of a timestamp has no blank at either end. -/
lemma trimmed_text (t : Timestamp) : Trimmed t.text.toList := by
  obtain ⟨c, more, hyear, hblank⟩ := yearText_cases t.date.year
  obtain ⟨front, ds, hclock, hds, hne⟩ := clockText_ends t
  rw [Timestamp.text, String.toList_append, hclock, ← List.append_assoc]
  refine trimmed_append_digits (fun d hd => ?_) hds hne
  simp only [Date.text, String.toList_append, hyear, List.cons_append, List.head?_cons] at hd
  exact Option.some.inj hd ▸ hblank

end Calendar

end TableTail
