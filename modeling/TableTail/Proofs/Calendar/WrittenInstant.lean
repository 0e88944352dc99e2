import TableTail.Proofs.Calendar.TimestampText
import TableTail.Proofs.Text.FixedWidth

/-!
# Written instants

A date, a time of day to the minute or to a part of a second, and a zone, as they may be written in
one text (`WrittenInstant`). Each part is a structure of its own that carries its bounds, with its
characters and with what it stands for.
-/

namespace TableTail

open Text

/-- What stands behind a time of day: `Z` for universal time, or an offset from it. -/
inductive Zone
  | universal
  | offset (west : Bool) (hours minutes : Nat) (hours_lt : hours < 24) (minutes_lt : minutes < 60)

/-- Written seconds with the digits of their fraction, if it has one. -/
structure WrittenSeconds where
  second : Nat
  fraction : List Nat
  second_lt : second < 60
  digits : AreDigits fraction

/-- A written time of day, behind a date and a blank or a `T`. -/
structure WrittenClock where
  joined : Bool
  hour : Nat
  minute : Nat
  seconds : Option WrittenSeconds
  hour_lt : hour < 24
  minute_lt : minute < 60

/-- A written instant: a date in four digits of the year, and what may stand behind it. -/
structure WrittenInstant where
  date : Date
  clock : Option WrittenClock
  zone : Option Zone
  year : 0 ≤ date.year ∧ date.year ≤ 9999

namespace Zone

/-- The minutes that a zone is ahead of universal time. -/
def minutes : Zone → Int
  | universal => 0
  | offset west hours minutes _ _ =>
    if west then -((hours * 60 + minutes : Nat) : Int) else ((hours * 60 + minutes : Nat) : Int)

/-- The offset of a zone is less than a day. -/
lemma minutes_bounds (zone : Zone) : -1440 < zone.minutes ∧ zone.minutes < 1440 := by
  cases zone with
  | universal => decide
  | offset west hours minutes hhours hminutes =>
    unfold Zone.minutes
    split <;> omega

/-- The characters of a zone. -/
def chars : Zone → List Char
  | universal => ['Z']
  | offset west hours minutes _ _ =>
    (if west then '-' else '+') :: ((padded 2 hours).toList ++ ':' :: (padded 2 minutes).toList)

/-- The characters of a zone, if there is one. -/
def charsOf (zone : Option Zone) : List Char := (zone.map chars).getD []

/-- A zone begins with a sign or with a letter. -/
lemma chars_cases (zone : Zone) :
    ∃ c more, zone.chars = c :: more ∧ (c = 'Z' ∨ c = '+' ∨ c = '-') := by
  cases zone with
  | universal => exact ⟨'Z', [], rfl, .inl rfl⟩
  | offset west hours minutes _ _ =>
    cases west with
    | true => exact ⟨'-', _, rfl, .inr (.inr rfl)⟩
    | false => exact ⟨'+', _, rfl, .inr (.inl rfl)⟩

/-- What a zone, or nothing, does not begin with. -/
lemma head?_charsOf_ne {c : Char} (hletter : c ≠ 'Z') (hplus : c ≠ '+') (hminus : c ≠ '-')
    (zone : Option Zone) (rest : List Char) : charsOf zone ≠ c :: rest := by
  cases zone with
  | none => exact nofun
  | some zone =>
    obtain ⟨first, more, hchars, hfirst⟩ := zone.chars_cases
    intro heq
    obtain ⟨rfl, -⟩ := List.cons.inj (hchars.symm.trans heq)
    rcases hfirst with rfl | rfl | rfl
    · exact hletter rfl
    · exact hplus rfl
    · exact hminus rfl

/-- A zone does not go on with digits. -/
lemma startsApart_charsOf (zone : Option Zone) : Calendar.StartsApart (charsOf zone) := by
  cases zone with
  | none => exact nofun
  | some zone =>
    obtain ⟨first, more, hchars, hfirst⟩ := zone.chars_cases
    show Calendar.StartsApart zone.chars
    rw [hchars]
    rcases hfirst with rfl | rfl | rfl
    all_goals exact Calendar.startsApart_cons rfl _

end Zone

namespace WrittenSeconds

/-- The characters of a fraction, if there is one. -/
def fractionChars (s : WrittenSeconds) : List Char :=
  if s.fraction = [] then [] else '.' :: s.fraction.map digitChar

/-- The characters of seconds behind hours and minutes. -/
def chars (s : WrittenSeconds) : List Char := ':' :: ((padded 2 s.second).toList ++ s.fractionChars)

/-- The nanoseconds of a fraction, of which nine places count. -/
def nanos (s : WrittenSeconds) : Nat := ofDigits (s.fraction.take 9) * 10 ^ (9 - s.fraction.length)

/-- A fraction is less than a second. -/
lemma nanos_lt (s : WrittenSeconds) : s.nanos < 1000000000 := by
  have htaken : ofDigits (s.fraction.take 9) < 10 ^ (s.fraction.take 9).length :=
    ofDigits_lt fun d hd => s.digits d (List.mem_of_mem_take hd)
  rw [List.length_take] at htaken
  unfold nanos
  rcases Nat.le_total s.fraction.length 9 with hle | hle
  · rw [Nat.min_eq_right hle] at htaken
    calc ofDigits (s.fraction.take 9) * 10 ^ (9 - s.fraction.length)
        < 10 ^ s.fraction.length * 10 ^ (9 - s.fraction.length) :=
          Nat.mul_lt_mul_of_pos_right htaken (by positivity)
      _ = 1000000000 := by rw [← Nat.pow_add, Nat.add_sub_cancel' hle]
  · rw [Nat.min_eq_left hle] at htaken
    simpa [Nat.sub_eq_zero_of_le hle] using htaken

end WrittenSeconds

namespace WrittenClock

/-- The characters behind the minutes. -/
def secondsChars (c : WrittenClock) : List Char := (c.seconds.map WrittenSeconds.chars).getD []

/-- The characters of a time of day. -/
def chars (c : WrittenClock) : List Char :=
  (padded 2 c.hour).toList ++ ':' :: ((padded 2 c.minute).toList ++ c.secondsChars)

/-- The second of the minute, the first one when none is told. -/
def secondOfMinute (c : WrittenClock) : Nat := (c.seconds.map WrittenSeconds.second).getD 0

/-- A second of a minute is less than a minute. -/
lemma secondOfMinute_lt (c : WrittenClock) : c.secondOfMinute < 60 := by
  unfold secondOfMinute
  cases c.seconds with
  | none => decide
  | some s => exact s.second_lt

/-- The second of the day. -/
def second (c : WrittenClock) : Nat := c.hour * 3600 + c.minute * 60 + c.secondOfMinute

/-- A time of day is less than a day. -/
lemma second_lt (c : WrittenClock) : c.second < 86400 := by
  have hhour := c.hour_lt
  have hminute := c.minute_lt
  have hsecond := c.secondOfMinute_lt
  unfold second
  omega

/-- The nanoseconds behind it. -/
def nano (c : WrittenClock) : Nat := (c.seconds.map WrittenSeconds.nanos).getD 0

/-- They are less than a second. -/
lemma nano_lt (c : WrittenClock) : c.nano < 1000000000 := by
  unfold nano
  cases c.seconds with
  | none => decide
  | some s => exact s.nanos_lt

/-- The character between a date and a time of day. -/
def separator (c : WrittenClock) : Char := if c.joined then 'T' else ' '

end WrittenClock

namespace WrittenInstant

/-- What stands behind the date. -/
def behindDate (w : WrittenInstant) : List Char :=
  (w.clock.map fun c => c.separator :: c.chars).getD [] ++ Zone.charsOf w.zone

/-- The characters of a written instant. -/
def chars (w : WrittenInstant) : List Char := w.date.text.toList ++ w.behindDate

/-- The text of a written instant. -/
def text (w : WrittenInstant) : String := String.ofList w.chars

/-- The minutes that the instant's zone is ahead of universal time; without one it is this. -/
def offset (w : WrittenInstant) : Int := (w.zone.map Zone.minutes).getD 0

/-- The seconds of Unix time of a written instant. -/
def unixSeconds (w : WrittenInstant) : Int :=
  w.date.toDays * 86400 + ((w.clock.map WrittenClock.second).getD 0 : Nat) - w.offset * 60

/-- The nanoseconds behind them. -/
def nano (w : WrittenInstant) : Nat := (w.clock.map WrittenClock.nano).getD 0

/-- They are less than a second. -/
lemma nano_lt (w : WrittenInstant) : w.nano < 1000000000 := by
  unfold nano
  cases w.clock with
  | none => decide
  | some c => exact c.nano_lt

/-- A time of day, if there is one, has seconds. -/
def TellsSeconds (w : WrittenInstant) : Prop := ∀ c ∈ w.clock, c.seconds.isSome

end WrittenInstant

section Trimmed

/-- A text that ends in a character that is no blank. -/
def EndsUnblank (s : List Char) : Prop := ∃ front c, s = front ++ [c] ∧ isBlank c = false

variable {s : List Char}

/-- What is in front does not count for the end. -/
lemma EndsUnblank.append_left (front : List Char) (h : EndsUnblank s) :
    EndsUnblank (front ++ s) := by
  obtain ⟨more, c, rfl, hc⟩ := h
  exact ⟨front ++ more, c, (List.append_assoc ..).symm, hc⟩

/-- Digits end in one. -/
lemma endsUnblank_digits {ds : List Nat} (h : AreDigits ds) (hne : ds ≠ []) :
    EndsUnblank (ds.map digitChar) := by
  refine ⟨ds.dropLast.map digitChar, digitChar (ds.getLast hne), ?_,
    isBlank_digitChar (h _ (List.getLast_mem hne))⟩
  rw [← List.map_singleton (f := digitChar), ← List.map_append, List.dropLast_append_getLast hne]

/-- A number that is printed ends in a digit. -/
lemma endsUnblank_padded (width n : Nat) : EndsUnblank (padded width n).toList := by
  rw [toList_padded]
  exact endsUnblank_digits (areDigits_paddedDigits width n) (paddedDigits_ne_nil width n)

namespace WrittenInstant

variable (w : WrittenInstant)

/-- A zone behind a text that has no blank at its end leaves none there. -/
lemma endsUnblank_append_zone (h : EndsUnblank s) (zone : Option Zone) :
    EndsUnblank (s ++ Zone.charsOf zone) := by
  cases zone with
  | none => rwa [show Zone.charsOf none = [] from rfl, List.append_nil]
  | some zone =>
    refine EndsUnblank.append_left s ?_
    cases zone with
    | universal => exact ⟨[], 'Z', rfl, rfl⟩
    | offset west hours minutes _ _ =>
      have hlast := endsUnblank_padded 2 minutes
      exact .append_left [_] (.append_left _ (.append_left [_] hlast))

/-- A time of day ends in a digit. -/
lemma endsUnblank_clock (c : WrittenClock) : EndsUnblank c.chars := by
  refine .append_left _ (.append_left [_] ?_)
  unfold WrittenClock.secondsChars
  cases c.seconds with
  | none =>
    show EndsUnblank ((padded 2 c.minute).toList ++ [])
    rw [List.append_nil]
    exact endsUnblank_padded 2 c.minute
  | some s =>
    refine .append_left _ (.append_left [_] ?_)
    unfold WrittenSeconds.fractionChars
    split
    · show EndsUnblank ((padded 2 s.second).toList ++ [])
      rw [List.append_nil]
      exact endsUnblank_padded 2 s.second
    · next hne => exact .append_left _ (.append_left [_] (endsUnblank_digits s.digits hne))

/-- A written instant has no blank at either end. -/
lemma trimmed_chars : Trimmed w.chars := by
  obtain ⟨first, more, hyear, hfirst⟩ := Calendar.yearText_cases w.date.year
  constructor
  · intro c hc
    simp only [chars, Date.text, String.toList_append, hyear, List.cons_append,
      List.head?_cons] at hc
    exact Option.some.inj hc ▸ hfirst
  · have hends : EndsUnblank w.chars := by
      unfold chars behindDate
      rw [← List.append_assoc]
      refine endsUnblank_append_zone ?_ w.zone
      cases w.clock with
      | none =>
        rw [Option.map_none, Option.getD_none, List.append_nil, Date.text, String.toList_append]
        exact .append_left _ (endsUnblank_padded 2 w.date.day)
      | some c => exact .append_left _ (.append_left [_] (endsUnblank_clock c))
    obtain ⟨front, last, hchars, hlast⟩ := hends
    intro c hc
    rw [hchars, List.getLast?_concat] at hc
    exact Option.some.inj hc ▸ hlast

end WrittenInstant

end Trimmed

end TableTail
