import TableTail.Proofs.Checkpoint.Resumed

/-!
# Losing a checkpoint

When the file of a checkpoint cannot be read the table is opened as it is configured. It is opened
exactly when it would be with the checkpoint, and each unit that is tracked in both cases starts at
a mark that depends on the configuration and on what the checkpoint keeps for this unit
(`Opening.startOf`). Without the checkpoint this start is the earlier one as long as the mark in
the checkpoint is not before it, and for a partition with a configured start in any case
(`Opening.startOf_none_isLE_iff`). What is lost otherwise is a mark that was before the configured
one: a single mark is reconciled downwards, so the configured one alone may lie behind it. Then the
loss does not lengthen what is read again but passes over rows.

A start is a boundary between rows, and of the rows at the mark itself an unread mark leaves all to
be read. This is lost too: a unit that was unread just where it is configured to start does not
read these rows without its checkpoint (`Boundary.behind_notPast_iff`).
-/

namespace TableTail

namespace Mark

/-- A mark is not after the later one of two. -/
lemma isLE_later (a b : Mark) : (a.compareMark (a.later b)).isLE = true := by
  unfold later
  split
  · simp
  · next h =>
    cases hab : a.compareMark b with
    | lt => rfl
    | eq => rfl
    | gt => exact absurd hab h

/-- A mark is not after the earlier one of two exactly if it is not after the other one. -/
lemma isLE_earlier_iff {a b : Mark} :
    (a.compareMark (a.earlier b)).isLE = true ↔ (a.compareMark b).isLE = true := by
  unfold earlier
  split
  · rfl
  · next h =>
    rw [compareMark_self]
    cases hab : a.compareMark b with
    | lt => simp
    | eq => simp
    | gt => exact absurd hab h

/-- One more mark at the end of a list is compared with the latest one before. -/
lemma latest_concat (l : List Mark) (m : Mark) :
    latest (l ++ [m]) = some (((latest l).map fun f => f.later m).getD m) := by
  cases l with
  | nil => rfl
  | cons first rest => simp [latest]

end Mark

namespace Boundary

/-- A boundary is not before the one behind a row exactly if this row counts as read at it. -/
lemma behind_notPast_iff {m : Mark} {b : Boundary} :
    (behind m).NotPast b ↔
      (m.compareMark b.after).isLE = true ∧ ¬ (b.unread = true ∧ m.same b.after = true) := by
  have hcovers : (behind m).NotPast b ↔ b.covers m = true := by
    constructor
    · intro h
      apply h
      rw [covers_behind, Mark.compareMark_self]
      rfl
    · intro h m' hm'
      rw [covers_behind] at hm'
      exact covers_of_isLE hm' h
  rw [hcovers, covers, Mark.same]
  cases m.compareMark b.after with
  | lt => simp
  | eq => simp
  | gt => simp

end Boundary

namespace Checkpoint

/-- The mark that a checkpoint keeps for a unit. -/
def markOf? : Checkpoint → Option String → Option Mark
  | .single m, none => some m
  | .partitioned positions _, some identity => Named.get? identity positions
  | _, _ => none

/-- Whether a checkpoint keeps a unit as unread. -/
def isUnread : Checkpoint → Option String → Bool
  | .partitioned _ unread, some identity => unread.contains identity
  | _, _ => false

end Checkpoint

namespace Opening

variable {r : Reader} {byDefault : Option Mark} {configured : Named Mark} {rows : List Sql.Row}
  {checkpoint : Option Checkpoint} {unit : Option String}

/-- Where a unit starts when a mark of it was persisted, or none. -/
def startOf (r : Reader) (byDefault : Option Mark) (configured : Named Mark) :
    (unit : Option String) → (persisted : Option Mark) → Mark
  | none, persisted => Mark.singleStart r.kind byDefault persisted
  | some identity, persisted =>
    Mark.partitionStart r.kind byDefault (Named.get? identity configured) persisted

/-- A partition has a start in the configuration, its own one or the one for all. -/
def HasStart (byDefault : Option Mark) (configured : Named Mark) (unit : Option String) : Prop :=
  ∃ identity, unit = some identity ∧
    (byDefault.isSome = true ∨ Named.has identity configured = true)

/-- The units of a table that is opened start where configuration and checkpoint say. -/
lemma progress_of_cursorFrom {u : TableUnit}
    (hu : u ∈ (cursorFrom r byDefault configured rows checkpoint).units) :
    let persisted := checkpoint.bind fun k => k.markOf? u.name
    let start := startOf r byDefault configured u.name persisted
    u.progress = ⟨start, (checkpoint.any fun k => k.isUnread u.name) &&
      persisted.any fun m => m.same start, none⟩ := by
  unfold cursorFrom at hu
  cases hidentity : r.selection.identity with
  | none =>
    rw [hidentity] at hu
    obtain rfl := List.mem_singleton.1 hu
    rcases checkpoint with _ | m | ⟨positions, unread⟩
    · rfl
    · rfl
    · rfl
  | some column =>
    rw [hidentity] at hu
    obtain ⟨p, hp, rfl⟩ := List.mem_map.1 hu
    have hknown : Named.Sorted (identitiesOf rows) := Named.sorted_ofPairs _
    rw [opened, slots_partitions (sorted_addIdentities hknown)] at hp
    obtain ⟨k, -, rfl⟩ := List.mem_map.1 hp
    rcases checkpoint with _ | m | ⟨positions, unread⟩
    · rfl
    · rfl
    · rfl

/-- A start is not after what it is reconciled with, or it is the zero and nothing is configured. -/
lemma singleStart_none_isLE_iff {kind : MarkKind} (persisted : Option Mark) :
    ((Mark.singleStart kind byDefault none).compareMark
        (Mark.singleStart kind byDefault persisted)).isLE = true ↔
      ∀ m ∈ persisted, ((Mark.singleStart kind byDefault none).compareMark m).isLE = true := by
  cases persisted with
  | none => simp
  | some m =>
    simp only [Option.mem_some_iff, forall_eq']
    cases byDefault with
    | none => rfl
    | some a => exact Mark.isLE_earlier_iff

/-- A partition without configured starts starts at its persisted mark, or at the zero. With them
it does not start before the latest one of them. -/
lemma partitionStart_none_isLE_iff {kind : MarkKind} {own : Option Mark} (persisted : Option Mark) :
    ((Mark.partitionStart kind byDefault own none).compareMark
        (Mark.partitionStart kind byDefault own persisted)).isLE = true ↔
      (byDefault.isSome = true ∨ own.isSome = true) ∨ ∀ m ∈ persisted,
        ((Mark.partitionStart kind byDefault own none).compareMark m).isLE = true := by
  cases persisted with
  | none => simp
  | some m =>
    simp only [Option.mem_some_iff, forall_eq']
    simp only [Mark.partitionStart, Option.toList_none, List.append_nil, Option.toList_some,
      Mark.latest_concat, Option.getD_some]
    cases hlatest : Mark.latest (byDefault.toList ++ own.toList) with
    | none =>
      -- nothing is configured
      cases byDefault with
      | some a => cases hlatest
      | none =>
        cases own with
        | some a => cases hlatest
        | none => simp
    | some f =>
      have hconfigured : byDefault.isSome = true ∨ own.isSome = true := by
        cases byDefault with
        | some a => exact .inl rfl
        | none =>
          cases own with
          | some a => exact .inr rfl
          | none => cases hlatest
      simp [hconfigured, Mark.isLE_later]

/-- A unit starts no later without the mark that was persisted for it exactly if this mark is not
before the start, or if the unit is a partition with a configured start. -/
theorem startOf_none_isLE_iff (persisted : Option Mark) :
    ((startOf r byDefault configured unit none).compareMark
        (startOf r byDefault configured unit persisted)).isLE = true ↔
      HasStart byDefault configured unit ∨ ∀ m ∈ persisted,
        ((startOf r byDefault configured unit none).compareMark m).isLE = true := by
  cases unit with
  | none => simp [startOf, HasStart, singleStart_none_isLE_iff]
  | some identity =>
    simp [startOf, HasStart, partitionStart_none_isLE_iff, Named.has]

end Opening

namespace Rehearsal

/-- A table whose checkpoint cannot be read is opened if it is opened with its checkpoint, and it
fails to open in the same way if not. Each unit that is tracked in both cases then starts where it
is configured to, with the row at this mark counted as read. This is not after the mark at which it
starts with the checkpoint exactly if the mark in the checkpoint is not before it, or if the unit is
a partition with a configured start; and no row that is still to be read with the checkpoint counts
as read without it, exactly if besides the unit does not start unread at this same mark. -/
theorem opening_lost {w : Rehearsal} {root : String} {source : Source} {d : Descriptor}
    {schema : Schema} {policy : IdlePolicy} {r : Reader} {checkpoint : Checkpoint}
    {files : FileTree} {cause : FileError}
    (hreader : Opening.readerOf source d schema policy = .ok r)
    (hloaded : w.loaded root r = .ok (some checkpoint))
    (hlost : load files (Location.of root r.catalog r.name) = .error cause) :
    let opening := w.opening root source d schema policy
    let without := ({ w with files := files } : Rehearsal).opening root source d schema policy
    (∀ e, opening = .error e ↔ without = .error e) ∧
    ∀ r' c, opening = .ok (r', c) → ∃ c' byDefault configured,
      without = .ok (r', c') ∧
      Opening.readDefault r.name r.kind d.cursor.defaultStart = .ok byDefault ∧
      (r.isPartitioned = true →
        Opening.readStarts r.name r.kind d.cursor.starts = .ok configured) ∧
      ∀ u ∈ c.units, ∀ u' ∈ c'.units, u'.name = u.name →
        u'.progress = ⟨Opening.startOf r byDefault configured u.name none, false, none⟩ ∧
        ((u'.progress.after.compareMark u.progress.after).isLE = true ↔
          Opening.HasStart byDefault configured u.name ∨ ∀ m ∈ checkpoint.markOf? u.name,
            (u'.progress.after.compareMark m).isLE = true) ∧
        (u'.boundary.NotPast u.boundary ↔
          (u'.progress.after.compareMark u.progress.after).isLE = true ∧
            ¬ (u.progress.unread = true ∧ u'.progress.after.same u.progress.after = true)) := by
  have hfound : Opening.usable (w.loaded root r) = .ok (some checkpoint) :=
    congrArg Opening.usable hloaded
  have hnone : Opening.usable (({ w with files := files } : Rehearsal).loaded root r) =
      .ok none :=
    congrArg Opening.usable (loaded_of_unreadable (w := { w with files := files }) hlost)
  intro opening without
  constructor
  · exact opening_eq_error_iff_of_usable hreader hfound hnone
  · intro r' c hopened
    obtain ⟨rfl, hopens⟩ := (opening_eq_ok_iff hreader).1 hopened
    rw [hfound] at hopens
    obtain ⟨byDefault, configured, rows, hdefault, hfindings, rfl⟩ := opens_eq_ok_iff.1 hopens
    have hwithout : without = .ok (r', Opening.cursorFrom r' byDefault configured rows none) := by
      refine (opening_eq_ok_iff hreader).2 ⟨rfl, ?_⟩
      rw [hnone]
      exact opens_eq_ok_iff.2 ⟨byDefault, configured, rows, hdefault, hfindings, rfl⟩
    obtain rfl := Opening.descriptor_of_readerOf hreader
    refine ⟨_, byDefault, configured, hwithout, hdefault, ?_, ?_⟩
    · intro hpartitioned
      obtain ⟨column, hcolumn⟩ := Option.isSome_iff_exists.1 hpartitioned
      exact readStarts_of_findings hcolumn hfindings
    · intro u hu u' hu' hname
      have hkept := Opening.progress_of_cursorFrom hu
      have hfallback : u'.progress =
          ⟨Opening.startOf r' byDefault configured u.name none, false, none⟩ := by
        rw [← hname]
        exact Opening.progress_of_cursorFrom hu'
      refine ⟨hfallback, ?_, ?_⟩
      · rw [hfallback, hkept]
        exact Opening.startOf_none_isLE_iff _
      · have hbehind : u'.boundary = .behind u'.progress.after := by
          rw [TableUnit.boundary, hfallback]
          rfl
        rw [hbehind]
        exact Boundary.behind_notPast_iff

end Rehearsal

namespace Journal

/-- The journal read as a whole from the tenth entry on. -/
def tenthDescriptor : Descriptor :=
  ⟨"journal", "journal", [], [], [], none, ⟨"id", none, some "10", [], [], [], true⟩⟩

/-- Its reader. -/
def tenthReader : Reader :=
  ⟨tenthDescriptor, schema, { selection with identity := none }, "db", .integer, ⟨0, 0⟩⟩

/-- Surroundings in which the journal was read up to its fifth entry. -/
def fifth : Rehearsal :=
  { blank with
    files := FileTree.empty.install ["store", "db", "journal.pos"]
      (.file (FileTree.bytesOfText "5")) }

/-- Files in which a directory is where the journal's checkpoint was. -/
def blocked : FileTree := FileTree.empty.install ["store", "db", "journal.pos"] .directory

/-- The journal's checkpoint is the fifth entry. -/
lemma loaded_fifth : fifth.loaded "store" tenthReader = .ok (some (.single (.integer 5))) := by
  have hfile : Rehearsal.load fifth.files (Location.of "store" "db" "journal") =
      .ok (some "5") := by decide +kernel
  exact congrArg Prod.fst (Rehearsal.perform_load hfile rfl)

/-- With its checkpoint the journal is read from the fifth entry on. -/
lemma opening_fifth :
    fifth.opening "store" source tenthDescriptor schema ⟨0, 0⟩ =
      .ok (tenthReader, .single (.integer 5) none) := by
  have hreader : Opening.readerOf source tenthDescriptor schema ⟨0, 0⟩ = .ok tenthReader := rfl
  rw [Rehearsal.opening_eq hreader, loaded_fifth]
  rfl

/-- A directory cannot be read as a checkpoint. -/
lemma load_blocked : Rehearsal.load blocked (Location.of "store" "db" "journal") =
    .error .isADirectory := by decide +kernel

/-- Without its checkpoint the journal is read from the tenth entry on, where it is configured to
start, and so entries past the fifth one count as read. -/
theorem opening_fifth_blocked :
    Opening.readerOf source tenthDescriptor schema ⟨0, 0⟩ = .ok tenthReader ∧
      fifth.loaded "store" tenthReader = .ok (some (.single (.integer 5))) ∧
      Rehearsal.load blocked (Location.of "store" "db" "journal") = .error .isADirectory ∧
      ∃ c', ({ fifth with files := blocked } : Rehearsal).opening "store" source tenthDescriptor
          schema ⟨0, 0⟩ = .ok (tenthReader, c') ∧
        ∀ u' ∈ c'.units, u'.name = none → u'.progress = ⟨.integer 10, false, none⟩ ∧
          ¬ u'.boundary.NotPast ⟨.integer 5, false⟩ := by
  have hreader : Opening.readerOf source tenthDescriptor schema ⟨0, 0⟩ = .ok tenthReader := rfl
  obtain ⟨-, hopens⟩ := Rehearsal.opening_lost hreader loaded_fifth load_blocked
  obtain ⟨c', byDefault, configured, hwithout, hdefault, -, hunits⟩ := hopens _ _ opening_fifth
  obtain rfl : some (Mark.integer 10) = byDefault := Except.ok.inj hdefault
  refine ⟨hreader, loaded_fifth, load_blocked, c', hwithout, ?_⟩
  intro u' hu' hname
  obtain ⟨hstart, -, hpast⟩ := hunits ⟨none, none, ⟨.integer 5, false, none⟩⟩
    (List.mem_singleton_self _) u' hu' hname
  refine ⟨hstart, ?_⟩
  intro hnotPast
  obtain ⟨hle, -⟩ := hpast.1 hnotPast
  rw [hstart] at hle
  cases hle

/-- So a table with one mark may start later without its checkpoint than with it. -/
theorem later_without_checkpoint :
    fifth.opening "store" source tenthDescriptor schema ⟨0, 0⟩ =
        .ok (tenthReader, .single (.integer 5) none) ∧
      ({ fifth with files := blocked } : Rehearsal).opening "store" source tenthDescriptor schema
          ⟨0, 0⟩ = .ok (tenthReader, .single (.integer 10) none) ∧
      (Mark.integer 10).compareMark (.integer 5) = .gt := by
  have hreader : Opening.readerOf source tenthDescriptor schema ⟨0, 0⟩ = .ok tenthReader := rfl
  have hlost : ({ fifth with files := blocked } : Rehearsal).loaded "store" tenthReader =
      .error (.persistence "journal" (Location.of "store" "db" "journal") .isADirectory) :=
    Rehearsal.loaded_of_unreadable load_blocked
  refine ⟨opening_fifth, ?_, rfl⟩
  rw [Rehearsal.opening_eq hreader, hlost]
  rfl

end Journal

end TableTail
