import TableTail.Proofs.Stored.Instants
import TableTail.Stored.Database
import TableTail.Tables.Selection
import TableTail.Proofs.Tail.MarkText

/-!
# Rows past an instant

Where dates and times are kept as arbitrary text a scan compares them as written instants, which
have milliseconds, while its mark has nanoseconds. So a row with a later timestamp is past the mark
exactly when it has another nearest millisecond (`Selection.holds_later_instant`): a row that comes
within the mark's own millisecond is passed over.
-/

namespace TableTail

namespace Instant

/-- The instant of a cell of an increasing column, as it is compared. -/
def ofCursorCell : Stored → Stored
  | .integer i => ofUnixSeconds (.integer i)
  | v => ofStored v

/-- A stored value is compared as a timestamp to the nearest millisecond. There are no leap seconds
among these. -/
structure Rounds (v : Stored) (t : Timestamp) : Prop where
  civil : t.nano < 1000000000
  written : ∃ s, ofMilliseconds t.nearestMillis = some s ∧ ofCursorCell v = .text s

/-- The text of a regular timestamp from year zero to 9999 is compared as the timestamp to the
nearest millisecond, when that is in the same minute. -/
lemma rounds_text {t : Timestamp} (hregular : t.IsRegular)
    (hyear : 0 ≤ t.date.year ∧ t.date.year ≤ 9999)
    (hminute : t.second % 60 * 1000 + (t.nano + 500000) / 1000000 < 60000) :
    Rounds (.text t.text) t where
  civil := by
    have hleap : 1000000000 ≤ t.nano → t.second % 60 = 59 := hregular
    omega
  written := by
    obtain ⟨s, htext, hmillis⟩ := ofText_text hregular hyear hminute
    refine ⟨s, hmillis, ?_⟩
    rw [ofCursorCell, ofStored, htext]
    · rfl
    · nofun

/-- Two values with timestamps are compared as the nearest milliseconds of these. -/
lemma compare_of_rounds {v w : Stored} {t t' : Timestamp} (hv : Rounds v t)
    (hw : Rounds w t') (hyear : 0 ≤ t.date.year) (hbefore : t.compareMoment t' = .lt) :
    ∃ s s', ofCursorCell v = .text s ∧ ofCursorCell w = .text s' ∧
      compare s' s = if t.nearestMillis = t'.nearestMillis then .eq else .gt := by
  obtain ⟨s, hmillis, hs⟩ := hv.written
  obtain ⟨s', hmillis', hs'⟩ := hw.written
  refine ⟨s, s', hs, hs', ?_⟩
  split
  · next hsame =>
    rw [hsame, hmillis'] at hmillis
    obtain rfl := Option.some.inj hmillis
    exact Std.compare_self
  · next hother =>
    have hlt := lt_of_le_of_ne (Timestamp.nearestMillis_mono hv.civil hbefore) hother
    have htexts := compare_ofMilliseconds (Timestamp.yearZero_le_nearestMillis hyear) hlt
      hmillis hmillis'
    rw [Std.OrientedOrd.eq_swap, htexts]
    rfl

end Instant

namespace Selection

variable {sel : Selection} {scope : Selecting.Scope} {v : Stored} {a : Affinity}

/-- A row is past a parameter by the instants of its cell and of the parameter. -/
lemma holds_pastParameter (hdialect : sel.dialect = .sqlite)
    (hkind : sel.increment.kind = .dateTime)
    (hcell : scope.column sel.increment.name = some (v, a)) (index : Nat)
    (comparison : Sql.Comparison) :
    Selecting.holds scope (sel.pastParameter index comparison) =
      some (Selecting.meets comparison (Selecting.ordering (Instant.ofCursorCell v)
        (Instant.ofStored (scope.parameter index)))) := by
  have hterm : sel.dialect.cursorTerm sel.increment = .byStorage sel.increment.name
      (.unixInstant (.column sel.increment.name)) (.instant (.column sel.increment.name)) := by
    rw [hdialect, Sql.Dialect.cursorTerm, if_pos hkind]
  have hplaceholder : sel.dialect.cursorPlaceholder index sel.increment =
      .instant (.parameter index) := by
    rw [hdialect, Sql.Dialect.cursorPlaceholder, if_pos hkind]
  have hvalue : Selecting.value scope (sel.dialect.cursorTerm sel.increment) =
      some (Instant.ofCursorCell v) := by
    rw [hterm]
    cases v <;> simp [Selecting.value, hcell, Instant.ofCursorCell]
  simp only [pastParameter, Selecting.holds, Selecting.compareTerms, hvalue]
  rw [hterm, hplaceholder]
  rfl

/-- A row whose timestamp is later than the mark is past the mark exactly when the two have
different nearest milliseconds. -/
theorem holds_later_instant {t t' : Timestamp} {index : Nat} (hdialect : sel.dialect = .sqlite)
    (hkind : sel.increment.kind = .dateTime)
    (hcell : scope.column sel.increment.name = some (v, a))
    (hparameter : scope.parameter index = Stored.ofCell (Mark.timestamp t).toCell)
    (hmark : Instant.Rounds (.text t.text) t) (hrow : Instant.Rounds v t')
    (hyear : 0 ≤ t.date.year) (hbefore : (Mark.timestamp t).compareMark (.timestamp t') = .lt) :
    Selecting.holds scope (sel.pastParameter index .above) =
      some (decide (t.nearestMillis ≠ t'.nearestMillis)) := by
  obtain ⟨s, s', hs, hs', horder⟩ := Instant.compare_of_rounds hmark hrow hyear hbefore
  have hbound : Instant.ofStored (scope.parameter index) = .text s := by
    rw [hparameter]
    exact hs
  rw [holds_pastParameter hdialect hkind hcell, hs', hbound]
  have hordering : Selecting.ordering (.text s') (.text s) = some (compare s' s) := rfl
  rw [hordering, horder]
  split
  · next hsame => simp [hsame, Selecting.meets]
  · next hother => simp [hother, Selecting.meets]

end Selection

namespace Journal

/-- The journal read in the order of the moments of its entries. -/
def byMoment : Selection :=
  ⟨.sqlite, "\"journal\"", [⟨.column "at", "at"⟩], Sql.Column.ofDeclared "at" "DATETIME", none,
    none⟩

/-- Some nanoseconds after ten o'clock on the first day of 2024. -/
def afterTen (nano : Nat) : Timestamp := (Timestamp.of? 2024 1 1 10 0 0 nano).getD .epoch

/-- A tenth of a millisecond after ten. -/
def firstTenth : Timestamp := afterTen 100000

/-- Two tenths of a millisecond after ten. -/
def secondTenth : Timestamp := afterTen 200000

/-- An entry of the second tenth, with the first tenth as the parameter. -/
def secondEntry : Selecting.Scope :=
  ⟨[Stored.ofCell (Mark.timestamp firstTenth).toCell], [⟨"at", "DATETIME", false⟩],
    [.text secondTenth.text]⟩

/-- The timestamp of the entry is read as it is and is later than the mark, but the entry is not
past the mark. -/
theorem second_tenth_not_past :
    Mark.ofCell? .timestamp (Stored.text secondTenth.text).toCell =
        some (.timestamp secondTenth) ∧
      (Mark.timestamp firstTenth).compareMark (.timestamp secondTenth) = .lt ∧
      Selecting.holds secondEntry (byMoment.pastParameter 1 .above) = some false := by
  have hread : Mark.ofCell? .timestamp (Stored.text secondTenth.text).toCell =
      some (.timestamp secondTenth) :=
    congrArg Except.toOption (Mark.read_display (.timestamp secondTenth))
  have hlater : (Mark.timestamp firstTenth).compareMark (.timestamp secondTenth) = .lt := by
    decide
  refine ⟨hread, hlater, ?_⟩
  have hfirst : Instant.Rounds (.text firstTenth.text) firstTenth :=
    Instant.rounds_text (by decide) (by decide) (by decide)
  have hsecond : Instant.Rounds (.text secondTenth.text) secondTenth :=
    Instant.rounds_text (by decide) (by decide) (by decide)
  rw [Selection.holds_later_instant rfl (by decide) rfl rfl hfirst hsecond (by decide) hlater]
  decide

end Journal

end TableTail
