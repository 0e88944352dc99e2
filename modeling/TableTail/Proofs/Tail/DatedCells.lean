import TableTail.Proofs.Calendar.Layouts
import TableTail.Proofs.Stored.WrittenInstants
import TableTail.Proofs.Tables.LaterRows
import TableTail.Proofs.Tail.Stalled

/-!
# Cells with dates and times

In a column of dates and times a moment is kept as a text or as a number of seconds (`DatedCell`). A
scan compares the cell as the database writes it, and the reader reads it into a mark. The two do
not accept the same cells: a time of day to the minute is scanned and not read, in every layout, and
then the table stays where it is (`Reader.StallsAt`). What is read is the moment that the database
compares, to less than a millisecond, unless the last half of the last millisecond of a day is put
into the next one (`DatedCell.scan_and_read`).
-/

namespace TableTail

/-- A cell that holds a moment. -/
inductive DatedCell
  | unix (seconds : Int64)
  | written (instant : WrittenInstant)

namespace DatedCell

/-- The cell as it is stored. -/
def stored : DatedCell → Stored
  | unix seconds => .integer seconds
  | written w => .text w.text

/-- A scan has an instant for the cell. -/
def IsScanned : DatedCell → Prop
  | unix seconds => Instant.isRepresented (seconds.toInt * 1000) = true
  | written w => w.ZoneFits ∧ Instant.isRepresented w.millis = true

/-- A time of day, if there is one, has seconds. -/
def TellsSeconds : DatedCell → Prop
  | unix _ => True
  | written w => w.TellsSeconds

/-- The instant is put into the next day. -/
def Overflows : DatedCell → Prop
  | unix _ => False
  | written w => w.Overflows

end DatedCell

/-- The nanoseconds of Unix time. -/
def Timestamp.unixNanos (t : Timestamp) : Int := t.unixSeconds * 1000000000 + t.nano

/-- A stored value is compared as a millisecond that is less than one away from a timestamp. -/
def Instant.Near (v : Stored) (t : Timestamp) : Prop :=
  ∃ m s, ofMilliseconds m = some s ∧ ofCursorCell v = .text s ∧
    |t.unixNanos - m * 1000000| < 1000000

namespace Instant

variable {m : Int}

/-- What is represented is written. -/
lemma exists_ofMilliseconds_iff : (∃ s, ofMilliseconds m = some s) ↔ isRepresented m = true := by
  unfold ofMilliseconds
  split <;> simp [*]

/-- A text is compared as the instant in it. -/
lemma ofCursorCell_text (s : String) : ofCursorCell (.text s) = Stored.ofText? (ofText s) :=
  ofStored.eq_1 s ▸ rfl

end Instant

namespace DatedCell

variable {c : DatedCell} {w : WrittenInstant} {t : Timestamp}

/-- Which cells a scan compares with others. -/
lemma isScanned_iff : Instant.ofCursorCell c.stored ≠ .null ↔ c.IsScanned := by
  have hnull : ∀ text : Option String, Stored.ofText? text ≠ .null ↔ ∃ s, text = some s := by
    intro text
    cases text <;> simp [Stored.ofText?]
  cases c with
  | unix seconds => exact (hnull _).trans Instant.exists_ofMilliseconds_iff
  | written w =>
    rw [stored, Instant.ofCursorCell_text, hnull]
    exact Instant.exists_ofText_iff

/-- A cell with a written instant is read as its text. -/
lemma ofCell?_written (w : WrittenInstant) :
    Mark.ofCell? .timestamp (Stored.text w.text).toCell =
      (Calendar.read? w.chars).map .timestamp := by
  have htrim : Text.trim w.text = w.text := Text.trim_eq_self <| by
    rw [WrittenInstant.text, String.toList_ofList]
    exact w.trimmed_chars
  have hchars : (Text.trim w.text).toList = w.chars := by
    rw [htrim, WrittenInstant.text, String.toList_ofList]
  have hread : (Mark.read .timestamp w.text).toOption =
      (Calendar.read? w.chars).map Mark.timestamp := by
    unfold Mark.read
    simp only [hchars]
    cases Calendar.read? w.chars <;> rfl
  rw [← hread]
  generalize w.text = text
  rfl

/-- A moment that is put into the next day is not near what it is compared as. -/
lemma not_near_of_overflows (hscanned : (written w).IsScanned) (hoverflows : w.Overflows)
    (hunix : t.unixSeconds = w.unixSeconds) (hnano : t.nano = w.nano) :
    ¬ Instant.Near (written w).stored t := by
  rintro ⟨m, s, hmillis, hs, hnear⟩
  obtain ⟨m', text, hparts, htext, hkept⟩ := Instant.exists_ofParts hscanned.1.1 hscanned.2
  obtain ⟨-, rfl⟩ | ⟨hnot, -⟩ := hkept
  · obtain rfl : s = text := by
      rw [stored, Instant.ofCursorCell_text,
        (Instant.ofText_eq_some_iff w).2 ⟨hscanned.1, hparts⟩] at hs
      exact (Stored.text.inj hs).symm
    have hsub := w.nano_lt
    rw [Timestamp.unixNanos, hunix, hnano, abs_lt] at hnear
    have hyear : Instant.yearZero ≤ m := by
      obtain ⟨hoffset, -, c, hclock, hhour, -⟩ := hoverflows
      have hdays : -719528 ≤ w.date.toDays := (Date.le_year_iff w.date.isDay 0).1 w.year.1
      have hsecond : c.second = 23 * 3600 + c.minute * 60 + c.secondOfMinute := by
        rw [WrittenClock.second, hhour]
      have hunixSeconds : w.unixSeconds = w.date.toDays * 86400 + (c.second : Nat) := by
        rw [WrittenInstant.unixSeconds, hoffset, hclock]
        simp
      unfold Instant.yearZero
      omega
    have hbefore : m < w.millis + 86399999 := by
      unfold WrittenInstant.millis
      omega
    have hcompare := Instant.compare_ofMilliseconds hyear hbefore hmillis htext
    rw [Std.compare_self] at hcompare
    cases hcompare
  · exact hnot hoverflows

/-- A cell that is scanned is read as a moment near the one that it is compared as when a time of
day tells seconds, and is not put into the next day. -/
lemma exists_near_iff (hscanned : c.IsScanned) :
    (∃ t, Mark.ofCell? .timestamp c.stored.toCell = some (.timestamp t) ∧
      Instant.Near c.stored t) ↔ c.TellsSeconds ∧ ¬ c.Overflows := by
  cases c with
  | unix seconds =>
    refine iff_of_true ?_ ⟨trivial, id⟩
    have hbounds := Instant.isRepresented_iff.1 hscanned
    unfold Instant.epochOffset at hbounds
    have hdays : -96465292 ≤ seconds.toInt / 86400 ∧ seconds.toInt / 86400 < 95026237 := by omega
    obtain ⟨t, ht, hunix, hnano⟩ :=
      Timestamp.exists_ofUnix? hdays (show 0 < 1000000000 by decide)
    obtain ⟨s, hs⟩ := Instant.exists_ofMilliseconds_iff.2 hscanned
    refine ⟨t, congrArg (Option.map Mark.timestamp) ht, seconds.toInt * 1000, s, hs, ?_, ?_⟩
    · exact congrArg Stored.ofText? hs
    · rw [Timestamp.unixNanos, hunix, hnano, abs_lt]
      omega
  | written w =>
    have hcell := ofCell?_written w
    constructor
    · rintro ⟨t, ht, hnear⟩
      have htells : w.TellsSeconds := by
        by_contra hnot
        rw [stored, hcell, Calendar.read?_of_minute w hnot] at ht
        cases ht
      refine ⟨htells, fun hoverflows => ?_⟩
      obtain ⟨t', hread, hunix, hnano⟩ := Calendar.read?_of_tellsSeconds w hscanned.1.1 htells
      rw [stored, hcell, hread] at ht
      obtain rfl := Mark.timestamp.inj (Option.some.inj ht)
      exact not_near_of_overflows hscanned hoverflows hunix hnano hnear
    · rintro ⟨htells, hoverflows⟩
      obtain ⟨t, hread, hunix, hnano⟩ := Calendar.read?_of_tellsSeconds w hscanned.1.1 htells
      obtain ⟨m, text, hparts, htext, hkept⟩ := Instant.exists_ofParts hscanned.1.1 hscanned.2
      refine ⟨t, ?_, m, text, htext, ?_, ?_⟩
      · rw [stored, hcell, hread]
        rfl
      · rw [stored, Instant.ofCursorCell_text,
          (Instant.ofText_eq_some_iff w).2 ⟨hscanned.1, hparts⟩]
        rfl
      · have hsub := w.nano_lt
        rw [Timestamp.unixNanos, hunix, hnano, abs_lt]
        unfold WrittenInstant.millis at hkept
        obtain ⟨hover, -⟩ | ⟨-, rfl | ⟨rfl, hup⟩⟩ := hkept
        · exact absurd hover hoverflows
        · omega
        · omega

/-- A cell that is scanned is read exactly when a time of day tells seconds. -/
lemma ofCell?_eq_none_iff (hscanned : c.IsScanned) :
    Mark.ofCell? .timestamp c.stored.toCell = none ↔ ¬ c.TellsSeconds := by
  cases c with
  | unix seconds =>
    obtain ⟨t, ht, -⟩ := exists_near_iff hscanned |>.2 ⟨trivial, id⟩
    rw [ht]
    exact iff_of_false nofun fun h => h trivial
  | written w =>
    rw [stored, ofCell?_written, Option.map_eq_none_iff]
    refine ⟨fun hnone htells => ?_, Calendar.read?_of_minute w⟩
    obtain ⟨t, hread, -⟩ := Calendar.read?_of_tellsSeconds w hscanned.1.1 htells
    rw [hnone] at hread
    cases hread

/-- What a scan and the reader make of a cell with a moment. A scan has an instant for it when its
zone fits and the instant is represented, and no other cell satisfies the scan's condition. Of the
cells that a scan has, all are read but those with a time of day to the minute, which stop the
tables that they are in. What is read is less than a millisecond away from what the scan compares,
unless this is put into the next day. -/
theorem scan_and_read (c : DatedCell) :
    (Instant.ofCursorCell c.stored ≠ .null ↔ c.IsScanned) ∧
    (∀ (sel : Selection) (scope : Selecting.Scope) (a : Affinity) (index : Nat)
      (comparison : Sql.Comparison), sel.dialect = .sqlite → sel.increment.kind = .dateTime →
      scope.column sel.increment.name = some (c.stored, a) →
      Selecting.holds scope (sel.pastParameter index comparison) = some true → c.IsScanned) ∧
    (c.IsScanned →
      (Mark.ofCell? .timestamp c.stored.toCell ≠ none ↔ c.TellsSeconds) ∧
      (∀ r : Reader, r.kind = .timestamp → (r.StallsAt c.stored.toCell ↔ ¬ c.TellsSeconds)) ∧
      ((∃ t, Mark.ofCell? .timestamp c.stored.toCell = some (.timestamp t) ∧
        Instant.Near c.stored t) ↔ c.TellsSeconds ∧ ¬ c.Overflows)) := by
  refine ⟨isScanned_iff, ?_, fun hscanned => ⟨?_, ?_, exists_near_iff hscanned⟩⟩
  · intro sel scope a index comparison hdialect hkind hcell hholds
    rw [Selection.holds_pastParameter hdialect hkind hcell] at hholds
    rw [← isScanned_iff]
    intro hnull
    have hnone : ∀ v, Selecting.ordering .null v = none := fun v => if_pos (.inl rfl)
    rw [hnull, hnone] at hholds
    cases comparison <;> cases hholds
  · rw [ne_eq, ofCell?_eq_none_iff hscanned, not_not]
  · intro r hkind
    rw [Reader.stallsAt_iff, hkind, ofCell?_eq_none_iff hscanned]

end DatedCell

namespace Journal

/-- The reader of the journal in the order of the moments of its entries. -/
def momentReader : Reader := { reader with selection := byMoment, kind := .timestamp }

/-- An entry of ten o'clock to the minute is scanned but is not read, so the journal stays where it
is. With seconds the entry is read as the moment that the scan compares. -/
theorem ten_o_clock_stalls : ∃ minute second : WrittenInstant,
    minute.text = "2024-01-01 10:00" ∧ (DatedCell.written minute).IsScanned ∧
      Mark.ofCell? .timestamp (Stored.text minute.text).toCell = none ∧
      momentReader.StallsAt (Stored.text minute.text).toCell ∧
      second.text = "2024-01-01 10:00:00" ∧
      ∃ t, Mark.ofCell? .timestamp (Stored.text second.text).toCell = some (.timestamp t) ∧
        Instant.Near (Stored.text second.text) t := by
  have hfits : ∀ w : WrittenInstant, w.clock.isSome → w.zone = none → w.ZoneFits := by
    intro w hclock hzone
    exact ⟨fun _ => hzone, fun z hz => by simp [hzone] at hz⟩
  obtain ⟨minute, hminuteText, hminute, huntold⟩ : ∃ w : WrittenInstant,
      w.text = "2024-01-01 10:00" ∧ (DatedCell.written w).IsScanned ∧ ¬ w.TellsSeconds := by
    refine ⟨⟨⟨2024, 1, 1, by decide, by decide, by decide, by decide⟩,
      some ⟨false, 10, 0, none, by decide, by decide⟩, none, by decide⟩,
      by decide +kernel, ⟨hfits _ rfl rfl, by decide⟩, fun h => ?_⟩
    exact absurd (h _ rfl) (by decide)
  obtain ⟨second, hsecondText, hsecond, htold, hwithin⟩ : ∃ w : WrittenInstant,
      w.text = "2024-01-01 10:00:00" ∧ (DatedCell.written w).IsScanned ∧ w.TellsSeconds ∧
        ¬ w.Overflows := by
    refine ⟨⟨⟨2024, 1, 1, by decide, by decide, by decide, by decide⟩,
      some ⟨false, 10, 0, some ⟨0, [], by decide, by simp [Text.AreDigits]⟩, by decide, by decide⟩,
      none, by decide⟩, by decide +kernel, ⟨hfits _ rfl rfl, by decide⟩, fun c hc => ?_, fun h => ?_⟩
    · obtain rfl := Option.some.inj hc
      rfl
    · exact absurd h.2.1 (by decide)
  obtain ⟨hread, hstalls, -⟩ := (DatedCell.scan_and_read (.written minute)).2.2 hminute
  obtain ⟨-, -, hnear⟩ := (DatedCell.scan_and_read (.written second)).2.2 hsecond
  refine ⟨minute, second, hminuteText, hminute, ?_, (hstalls momentReader rfl).2 huntold,
    hsecondText, hnear.2 ⟨htold, hwithin⟩⟩
  by_contra hsome
  exact huntold (hread.1 hsome)

end Journal

end TableTail
