import TableTail.Proofs.Checkpoint.Lost

/-!
# Where partitions start

The partitions of a table come from four sources: the database answers identities, and the starts,
the includes and the checkpoint name some. Up to three marks are known for each of them. Opening a
table merges all this through several maps; what comes out is told here without them
(`Partitions.Reconciled`). Each identity that is answered or named, and admitted, is tracked once, in
the order of the identities; it starts at the latest of its marks and has the cell that the database
answered for it, the last one if it answered several (`Rehearsal.opening_reconciles`).
-/

namespace TableTail

/-! ## The sources -/

/-- A row reports an identity by a cell. -/
def Sql.Row.Reports (row : Sql.Row) (identity : String) (cell : Sql.Cell) : Prop :=
  row.get? Selection.identityLabel = some cell ∧ cell.text? = some identity

/-- Some rows report an identity. -/
def Reported (rows : List Sql.Row) (identity : String) : Prop :=
  ∃ row ∈ rows, ∃ cell, row.Reports identity cell

/-- The last one of some rows that reports an identity reports it by a cell. -/
def ReportedLast (rows : List Sql.Row) (identity : String) (cell : Sql.Cell) : Prop :=
  ∃ before row after, rows = before ++ row :: after ∧ row.Reports identity cell ∧
    ¬ Reported after identity

/-- The configuration admits an identity. -/
def CursorSettings.Admits (c : CursorSettings) (identity : String) : Prop :=
  (c.includes = [] ∨ identity ∈ c.includes) ∧ identity ∉ c.excludes

/-- The marks that are known for an identity: the one for all of the table, its own one, and the
persisted one. -/
inductive StartMark (c : CursorSettings) (kind : MarkKind) (persisted : Named Mark)
    (identity : String) : Mark → Prop
  | byDefault {text : String} {m : Mark} (h : c.defaultStart = some text)
      (hread : Mark.read kind text = .ok m) : StartMark c kind persisted identity m
  | configured {text : String} {m : Mark} (h : Named.get? identity c.starts = some text)
      (hread : Mark.read kind text = .ok m) : StartMark c kind persisted identity m
  | persisted {m : Mark} (h : Named.get? identity persisted = some m) :
      StartMark c kind persisted identity m

/-- Partitions as they are reconciled from the configuration, the marks and the unread identities of
a checkpoint, and the rows that the database answers. -/
structure Partitions.Reconciled (ps : Partitions) (c : CursorSettings) (kind : MarkKind)
    (column : Sql.Column) (persisted : Named Mark) (unread : List String) (rows : List Sql.Row) :
    Prop where
  wellFormed : ps.WellFormed
  ascending : (ps.slots.map (·.identity)).Pairwise (· < ·)
  tracked : ∀ identity, identity ∈ ps.slots.map (·.identity) ↔
    (Reported rows identity ∨ identity ∈ Named.names c.starts ∨
      identity ∈ Named.names persisted ∨ identity ∈ c.includes) ∧ c.Admits identity
  start : ∀ p ∈ ps.slots,
    StartMark c kind persisted p.identity p.progress.after ∨
      (∀ m, ¬ StartMark c kind persisted p.identity m) ∧ p.progress.after = Mark.zero kind
  latest : ∀ p ∈ ps.slots, ∀ m, StartMark c kind persisted p.identity m →
    (m.compareMark p.progress.after).isLE = true
  unread : ∀ p ∈ ps.slots, p.progress.unread = true ↔ p.identity ∈ unread ∧
    ∃ m, Named.get? p.identity persisted = some m ∧ m.same p.progress.after = true
  answered : ∀ p ∈ ps.slots, Reported rows p.identity → ReportedLast rows p.identity p.param
  named : ∀ p ∈ ps.slots, ¬ Reported rows p.identity → p.param = identityCell column p.identity
  active : ∀ p ∈ ps.slots, p.progress.idle = none

/-! ## The latest mark -/

namespace Mark

/-- The second of two marks is not after the later one. -/
lemma isLE_later_right (a b : Mark) : (b.compareMark (a.later b)).isLE = true := by
  unfold later
  split
  · next h =>
    rw [compareMark_swap, h]
    rfl
  · rw [compareMark_self]
    rfl

/-- None of some marks is after the latest one of them. -/
lemma isLE_latest {l : List Mark} {start m : Mark} (h : latest l = some start) (hm : m ∈ l) :
    (m.compareMark start).isLE = true := by
  have hfold : ∀ (rest : List Mark) (first : Mark),
      (first.compareMark (rest.foldl later first)).isLE = true ∧
        ∀ m ∈ rest, (m.compareMark (rest.foldl later first)).isLE = true := by
    intro rest
    induction rest with
    | nil =>
      intro first
      simp
    | cons next rest ih =>
      intro first
      obtain ⟨hfirst, hrest⟩ := ih (first.later next)
      refine ⟨compareMark_isLE_trans (isLE_later first next) hfirst, ?_⟩
      intro m hm
      rcases List.mem_cons.1 hm with rfl | hm
      · exact compareMark_isLE_trans (isLE_later_right first m) hfirst
      · exact hrest m hm
  cases l with
  | nil => cases h
  | cons first rest =>
    obtain rfl := Option.some.inj h
    obtain ⟨hfirst, hrest⟩ := hfold rest first
    rcases List.mem_cons.1 hm with rfl | hm
    · exact hfirst
    · exact hrest m hm

/-- There is a latest one of some marks, of which no other one is after it, unless there are none. -/
lemma latest_cases (l : List Mark) :
    l = [] ∧ latest l = none ∨
      ∃ start, latest l = some start ∧ start ∈ l ∧ ∀ m ∈ l, (m.compareMark start).isLE = true := by
  cases hlatest : latest l with
  | some start => exact .inr ⟨start, rfl, mem_of_latest hlatest, fun m hm => isLE_latest hlatest hm⟩
  | none =>
    cases l with
    | nil => exact .inl ⟨rfl, rfl⟩
    | cons first rest => cases hlatest

end Mark

/-! ## The merged map -/

namespace Opening

variable {rows : List Sql.Row} {identity : String} {cell : Sql.Cell}

/-- The identity in a row is the one that the row reports. -/
lemma identityOf?_eq_some_iff {row : Sql.Row} :
    identityOf? row = some (identity, cell) ↔ row.Reports identity cell := by
  unfold identityOf? Sql.Row.Reports
  constructor
  · intro h
    obtain ⟨cell', hcell, hpair⟩ := Option.bind_eq_some_iff.1 h
    obtain ⟨text, htext, heq⟩ := Option.map_eq_some_iff.1 hpair
    obtain ⟨rfl, rfl⟩ := Prod.mk.inj heq
    exact ⟨hcell, htext⟩
  · rintro ⟨hcell, htext⟩
    rw [hcell, Option.bind_some, htext, Option.map_some]

/-- One more row counts before the others if it reports the identity. -/
lemma get?_identitiesOf_concat (rows : List Sql.Row) (row : Sql.Row) :
    Named.get? identity (identitiesOf (rows ++ [row])) =
      (Named.get? identity (identityOf? row).toList).or
        (Named.get? identity (identitiesOf rows)) := by
  have hlast : [row].filterMap identityOf? = (identityOf? row).toList := by
    rw [List.filterMap_cons, List.filterMap_nil]
    cases identityOf? row <;> rfl
  have hreverse : (identityOf? row).toList.reverse = (identityOf? row).toList := by
    cases identityOf? row <;> rfl
  rw [identitiesOf, identitiesOf, Named.get?_ofPairs, Named.get?_ofPairs, List.filterMap_append,
    List.reverse_append, Named.get?_append, hlast, hreverse]

/-- A row has an identity with a cell exactly if it reports it by the cell. -/
lemma get?_identityOf?_eq_some_iff {row : Sql.Row} :
    Named.get? identity (identityOf? row).toList = some cell ↔ row.Reports identity cell := by
  rw [← identityOf?_eq_some_iff]
  rcases identityOf? row with _ | ⟨identity', cell'⟩
  · simp
  · by_cases h : identity = identity'
    · simp [Named.get?, h]
    · simp [Named.get?, h, Ne.symm h]

/-- The last row of all that reports an identity is the last one, if it reports the identity, and is
among the rows before it if not. -/
lemma reportedLast_concat {row : Sql.Row} : ReportedLast (rows ++ [row]) identity cell ↔
    row.Reports identity cell ∨
      (∀ cell', ¬ row.Reports identity cell') ∧ ReportedLast rows identity cell := by
  constructor
  · rintro ⟨before, row', after, hrows, hrow', hafter⟩
    rcases List.eq_nil_or_concat after with rfl | ⟨after, last, rfl⟩
    · obtain ⟨rfl, hlast⟩ := List.append_inj' hrows rfl
      obtain rfl := List.singleton_inj.1 hlast
      exact .inl hrow'
    · have hsplit : rows ++ [row] = (before ++ row' :: after) ++ [last] := by
        rw [hrows]
        simp
      obtain ⟨rfl, hlast⟩ := List.append_inj' hsplit rfl
      obtain rfl := List.singleton_inj.1 hlast
      refine .inr ⟨?_, before, row', after, rfl, hrow', ?_⟩
      · intro cell' hreports
        exact hafter ⟨row, by simp, cell', hreports⟩
      · rintro ⟨other, hother, hreports⟩
        exact hafter ⟨other, by simp [hother], hreports⟩
  · rintro (hrow | ⟨hnone, before, row', after, rfl, hrow', hafter⟩)
    · refine ⟨rows, row, [], rfl, hrow, ?_⟩
      rintro ⟨other, hother, -⟩
      cases hother
    · refine ⟨before, row', after ++ [row], by simp, hrow', ?_⟩
      rintro ⟨other, hother, cell', hreports⟩
      rcases List.mem_append.1 hother with hother | hother
      · exact hafter ⟨other, hother, cell', hreports⟩
      · obtain rfl := List.mem_singleton.1 hother
        exact hnone cell' hreports

/-- The known cell of an identity is that of the last row that reports it. -/
lemma get?_identitiesOf_eq_some_iff :
    Named.get? identity (identitiesOf rows) = some cell ↔ ReportedLast rows identity cell := by
  induction rows using List.reverseRecOn with
  | nil =>
    constructor
    · intro h
      cases h
    · rintro ⟨before, row, after, hrows, -⟩
      exact absurd hrows (by simp)
  | append_singleton rows row ih =>
    rw [get?_identitiesOf_concat, Option.or_eq_some_iff, get?_identityOf?_eq_some_iff, ih,
      reportedLast_concat, Option.eq_none_iff_forall_ne_some]
    simp only [ne_eq, get?_identityOf?_eq_some_iff]

/-- The identities that are answered are those that some row reports. -/
lemma has_identitiesOf_iff :
    Named.has identity (identitiesOf rows) = true ↔ Reported rows identity := by
  rw [has_identitiesOf]
  constructor
  · rintro ⟨row, hrow, hidentity⟩
    obtain ⟨⟨_, cell⟩, hpair, rfl⟩ := Option.map_eq_some_iff.1 hidentity
    exact ⟨row, hrow, cell, identityOf?_eq_some_iff.1 hpair⟩
  · rintro ⟨row, hrow, cell, hreports⟩
    refine ⟨row, hrow, ?_⟩
    rw [identityOf?_eq_some_iff.2 hreports]
    rfl

/-- An identity is admitted as the configuration says. -/
lemma admits_iff {c : CursorSettings} : admits c identity = true ↔ c.Admits identity := by
  unfold admits CursorSettings.Admits
  simp

/-- The marks of identities are those that their configured texts denote. -/
lemma get?_readStarts {table : String} {kind : MarkKind} {starts : Named String}
    {marks : Named Mark} (h : readStarts table kind starts = .ok marks) {m : Mark} :
    Named.get? identity marks = some m ↔
      ∃ text, Named.get? identity starts = some text ∧ Mark.read kind text = .ok m := by
  induction starts generalizing marks with
  | nil =>
    obtain rfl := Except.ok.inj h
    simp
  | cons entry rest ih =>
    obtain ⟨name, text⟩ := entry
    obtain ⟨m', others, hstart, hrest, rfl⟩ := readStarts_cons h
    rw [Named.get?, Named.get?]
    split
    · unfold readStart at hstart
      split at hstart
      · next hread =>
        obtain rfl := Except.ok.inj hstart
        simp [hread]
      · cases hstart
    · exact ih hrest

/-- The mark for all of a table is the one that its configured text denotes. -/
lemma readDefault_eq_some_iff {table : String} {kind : MarkKind} {configured : Option String}
    {byDefault : Option Mark} (h : readDefault table kind configured = .ok byDefault) {m : Mark} :
    byDefault = some m ↔ ∃ text, configured = some text ∧ Mark.read kind text = .ok m := by
  cases configured with
  | none =>
    obtain rfl := Except.ok.inj h
    simp
  | some text =>
    rw [readDefault, readStart] at h
    cases hread : Mark.read kind text with
    | error e =>
      rw [hread] at h
      cases h
    | ok m' =>
      rw [hread] at h
      obtain rfl := Except.ok.inj h
      simp [hread]

/-! ## The partitions of an open table -/

section Opened

variable {c : CursorSettings} {s : Starts} {column : Sql.Column} {table : String} {p : Partition}

/-- The candidates for a start are the marks that are known for the identity. -/
lemma mem_candidates_iff (hdefault : readDefault table s.kind c.defaultStart = .ok s.byDefault)
    (hstarts : readStarts table s.kind c.starts = .ok s.configured) {m : Mark} :
    m ∈ s.byDefault.toList ++ (Named.get? identity s.configured).toList ++
        (Named.get? identity s.persisted).toList ↔ StartMark c s.kind s.persisted identity m := by
  simp only [List.mem_append, Option.mem_toList, readDefault_eq_some_iff hdefault,
    get?_readStarts hstarts]
  constructor
  · rintro ((⟨text, htext, hread⟩ | ⟨text, htext, hread⟩) | hm)
    · exact .byDefault htext hread
    · exact .configured htext hread
    · exact .persisted hm
  · rintro (⟨htext, hread⟩ | ⟨htext, hread⟩ | hm)
    · exact .inl (.inl ⟨_, htext, hread⟩)
    · exact .inl (.inr ⟨_, htext, hread⟩)
    · exact .inr hm

/-- A partition starts at the latest of the marks that are known for its identity. -/
lemma start_partition (hdefault : readDefault table s.kind c.defaultStart = .ok s.byDefault)
    (hstarts : readStarts table s.kind c.starts = .ok s.configured) (param : Sql.Cell) :
    let start := (s.partition identity param).progress.after
    (StartMark c s.kind s.persisted identity start ∨
      (∀ m, ¬ StartMark c s.kind s.persisted identity m) ∧ start = Mark.zero s.kind) ∧
    ∀ m, StartMark c s.kind s.persisted identity m → (m.compareMark start).isLE = true := by
  simp only [← mem_candidates_iff hdefault hstarts, Starts.partition, Mark.partitionStart]
  obtain ⟨hnil, hnone⟩ | ⟨start, hstart, hmem, hle⟩ := Mark.latest_cases
    (s.byDefault.toList ++ (Named.get? identity s.configured).toList ++
      (Named.get? identity s.persisted).toList)
  · rw [hnil]
    refine ⟨.inr ⟨fun m => List.not_mem_nil, rfl⟩, ?_⟩
    intro m hm
    cases hm
  · rw [hstart]
    exact ⟨.inl hmem, hle⟩

/-- A partition is unread where it starts at the mark of a checkpoint that is unread. -/
lemma unread_partition_iff (param : Sql.Cell) :
    (s.partition identity param).progress.unread = true ↔ identity ∈ s.unread ∧
      ∃ m, Named.get? identity s.persisted = some m ∧
        m.same (s.partition identity param).progress.after = true := by
  simp only [Starts.partition, Bool.and_eq_true, List.contains_iff_mem, Option.any_eq_true]

/-- A partition is at its start, with the cell that was reported last for its identity or, when none
was, with the cell that the identity's text is read as. -/
lemma of_mem_slots_opened (hnames : Named.names s.configured = Named.names c.starts)
    (hp : p ∈ (opened c s column rows).slots) :
    ∃ param, p = s.partition p.identity param ∧ (ReportedLast rows p.identity param ∨
      ¬ Reported rows p.identity ∧ param = identityCell column p.identity) := by
  have hfound := wellFormed_partitions.get?_eq_some_iff.2 ⟨hp, rfl⟩
  obtain ⟨-, param, hparam, hcell | ⟨hnone, -, hcell⟩⟩ := (get?_opened (p := p) hnames).1 hfound
  · exact ⟨param, hparam, .inl (get?_identitiesOf_eq_some_iff.1 hcell)⟩
  · refine ⟨param, hparam, .inr ⟨?_, hcell.symm⟩⟩
    rw [← has_identitiesOf_iff, Named.has, hnone]
    exact Bool.false_ne_true

/-- The partitions are in the order of their identities. -/
lemma slots_opened_ascending :
    ((opened c s column rows).slots.map (·.identity)).Pairwise (· < ·) := by
  have hknown : Named.Sorted (addIdentities column (identitiesOf rows)
      (Named.names s.configured ++ Named.names s.persisted ++ c.includes)) :=
    sorted_addIdentities (Named.sorted_ofPairs _)
  rw [opened, slots_partitions hknown, List.map_map, List.pairwise_map]
  exact hknown.sublist List.filter_sublist

/-- The identities of the partitions are those that are answered or named, and admitted. -/
lemma mem_identities_opened_iff (hnames : Named.names s.configured = Named.names c.starts) :
    identity ∈ (opened c s column rows).slots.map (·.identity) ↔
      (Reported rows identity ∨ identity ∈ Named.names c.starts ∨
        identity ∈ Named.names s.persisted ∨ identity ∈ c.includes) ∧ c.Admits identity := by
  have hknown : Named.Sorted (addIdentities column (identitiesOf rows)
      (Named.names s.configured ++ Named.names s.persisted ++ c.includes)) :=
    sorted_addIdentities (Named.sorted_ofPairs _)
  have hsources : Named.has identity (addIdentities column (identitiesOf rows)
      (Named.names s.configured ++ Named.names s.persisted ++ c.includes)) = true ↔
      Named.has identity (identitiesOf rows) = true ∨
        identity ∈ Named.names s.configured ++ Named.names s.persisted ++ c.includes :=
    has_addIdentities
  rw [has_identitiesOf_iff, Named.has_iff, List.mem_map] at hsources
  simp only [List.mem_append, or_assoc] at hsources
  rw [← hnames, ← hsources, ← admits_iff, opened, slots_partitions hknown, List.map_map,
    List.mem_map]
  constructor
  · rintro ⟨k, hk, rfl⟩
    obtain ⟨hin, hadmitted⟩ := List.mem_filter.1 hk
    exact ⟨⟨k, hin, rfl⟩, hadmitted⟩
  · rintro ⟨⟨k, hin, rfl⟩, hadmitted⟩
    exact ⟨k, List.mem_filter.2 ⟨hin, hadmitted⟩, rfl⟩

/-- The partitions that a table is opened with are reconciled. -/
theorem reconciled_opened (hdefault : readDefault table s.kind c.defaultStart = .ok s.byDefault)
    (hstarts : readStarts table s.kind c.starts = .ok s.configured) :
    (opened c s column rows).Reconciled c s.kind column s.persisted s.unread rows := by
  have hnames := names_of_readStarts hstarts
  constructor
  · exact wellFormed_partitions
  · exact slots_opened_ascending
  · intro identity
    exact mem_identities_opened_iff hnames
  · intro p hp
    obtain ⟨param, hparam, -⟩ := of_mem_slots_opened hnames hp
    rw [congrArg Partition.progress hparam]
    exact (start_partition hdefault hstarts param).1
  · intro p hp
    obtain ⟨param, hparam, -⟩ := of_mem_slots_opened hnames hp
    rw [congrArg Partition.progress hparam]
    exact (start_partition hdefault hstarts param).2
  · intro p hp
    obtain ⟨param, hparam, -⟩ := of_mem_slots_opened hnames hp
    rw [congrArg Partition.progress hparam]
    exact unread_partition_iff param
  · intro p hp hreported
    obtain ⟨param, hparam, hlast | ⟨hnot, -⟩⟩ := of_mem_slots_opened hnames hp
    · rw [congrArg Partition.param hparam]
      exact hlast
    · exact absurd hreported hnot
  · intro p hp hnot
    obtain ⟨param, hparam, hlast | ⟨-, hcell⟩⟩ := of_mem_slots_opened hnames hp
    · obtain ⟨before, row, after, rfl, hreports, -⟩ := hlast
      exact absurd ⟨row, by simp, param, hreports⟩ hnot
    · rw [congrArg Partition.param hparam]
      exact hcell
  · intro p hp
    obtain ⟨param, hparam, -⟩ := of_mem_slots_opened hnames hp
    rw [congrArg Partition.progress hparam]
    rfl

end Opened

end Opening

namespace Rehearsal

variable {w : Rehearsal} {root : String} {source : Source} {d : Descriptor} {schema : Schema}
  {policy : IdlePolicy} {r : Reader} {c : Cursor} {column : Sql.Column}

/-- In a table with partitions the rows that are found are those of its minimum query. -/
lemma answered_of_findings {configured : Named Mark} {rows : List Sql.Row}
    (hcolumn : r.selection.identity = some column) (h : w.findings r = .ok (configured, rows)) :
    ∃ q, r.descriptor.minimumQuery r.selection column = some q ∧
      w.rowsOf q w.responses.head? = .ok rows := by
  obtain ⟨q, hq⟩ : ∃ q, r.descriptor.minimumQuery r.selection column = some q := by
    simp [Descriptor.minimumQuery, Selection.minimums, hcolumn]
  refine ⟨q, hq, ?_⟩
  have hstarts := readStarts_of_findings hcolumn h
  rw [findings, hcolumn] at h
  simp only [hstarts, hq] at h
  split at h
  · cases h
  · next hanswer =>
    obtain ⟨-, rfl⟩ := Prod.mk.inj (Except.ok.inj h)
    exact hanswer

/-- A table is opened only with a usable checkpoint, or with none. -/
lemma exists_usable_of_opens {usable : Except Failure (Option Checkpoint)}
    (h : w.opens r usable = .ok c) : ∃ checkpoint, usable = .ok checkpoint := by
  cases usable with
  | ok checkpoint => exact ⟨checkpoint, rfl⟩
  | error e =>
    unfold opens at h
    cases hdefault : Opening.readDefault r.name r.kind r.descriptor.cursor.defaultStart with
    | error e' =>
      rw [hdefault] at h
      cases h
    | ok byDefault =>
      rw [hdefault] at h
      cases h

/-- A table with partitions that is opened tracks exactly the identities that are answered or named,
and admitted, each of them once and in their order. Each starts at the latest of the marks that are
configured or persisted for it, or at the zero when there are none; it is unread if the checkpoint
has it so and it starts at the mark in the checkpoint; it has the last cell that the database
answered for it, or else the one that its text is read as; and it is not idle. -/
theorem opening_reconciles (hopened : w.opening root source d schema policy = .ok (r, c))
    (hcolumn : r.selection.identity = some column) :
    ∃ checkpoint q rows ps, Opening.usable (w.loaded root r) = .ok checkpoint ∧
      d.minimumQuery r.selection column = some q ∧ w.rowsOf q w.responses.head? = .ok rows ∧
      c = .partitioned ps ∧
      ps.Reconciled d.cursor r.kind column (Opening.persistedPartitions checkpoint).1
        (Opening.persistedPartitions checkpoint).2 rows := by
  have hreturns : (Reader.open root source d schema policy).Returns (.ok (r, c)) :=
    hopened ▸ Program.returns_run _ _ _ _
  obtain ⟨hreader, -⟩ := Reader.open_keeps hreturns
  obtain rfl := Opening.descriptor_of_readerOf hreader
  obtain ⟨-, hopens⟩ := (opening_eq_ok_iff hreader).1 hopened
  obtain ⟨checkpoint, husable⟩ := exists_usable_of_opens hopens
  rw [husable] at hopens
  obtain ⟨byDefault, configured, rows, hdefault, hfound, rfl⟩ := opens_eq_ok_iff.1 hopens
  obtain ⟨q, hq, hrows⟩ := answered_of_findings hcolumn hfound
  have hstarts := readStarts_of_findings hcolumn hfound
  let s : Opening.Starts := ⟨r.kind, byDefault, configured,
    (Opening.persistedPartitions checkpoint).1, (Opening.persistedPartitions checkpoint).2⟩
  have hreconciled : (Opening.opened r.descriptor.cursor s column rows).Reconciled
      r.descriptor.cursor s.kind column s.persisted s.unread rows :=
    Opening.reconciled_opened hdefault hstarts
  refine ⟨checkpoint, q, rows, _, husable, hq, hrows, ?_, hreconciled⟩
  rw [Opening.cursorFrom, hcolumn]

end Rehearsal

namespace Journal

/-- The journal with starts of its own for two owners, and one owner left out. -/
def startedDescriptor : Descriptor :=
  { descriptor with
    cursor := ⟨"id", some "owner", some "4", [("7", "3"), ("cy", "9")], [], ["eve"], true⟩ }

/-- Its reader. -/
def startedReader : Reader := { reader with descriptor := startedDescriptor }

/-- The persisted marks of three owners. -/
def kept : Named Mark := [("7", .integer 9), ("bo", .integer 2), ("cy", .integer 9)]

/-- The rows that the database answers: one owner has two cells with the same text, one is left
out, and one row has no owner. -/
def ownerRows : List Sql.Row :=
  [⟨["identity", "minimum"], [.text "7", .integer 1]⟩,
    ⟨["identity", "minimum"], [.text "eve", .integer 2]⟩,
    ⟨["identity", "minimum"], [.integer 7, .integer 5]⟩,
    ⟨["identity", "minimum"], [.null, .integer 6]⟩]

/-- Surroundings with this answer and a checkpoint in which the marks of two owners are unread. -/
def started : Rehearsal :=
  { blank with
    responses := [.ok ownerRows]
    files := FileTree.empty.install ["store", "db", "journal.pos"]
      (.file (FileTree.bytesOfText (Checkpoint.encode (.partitioned kept ["7", "bo"])))) }

/-- Three owners are tracked: the one with two cells has the last of them and is unread at its
persisted mark, the next one has moved past its persisted mark, and the last one was not unread. -/
def startedOwners : Cursor :=
  .partitioned (Partitions.empty.insert ⟨"7", .integer 7, ⟨.integer 9, true, none⟩⟩ |>.insert
    ⟨"bo", .text "bo", ⟨.integer 4, false, none⟩⟩ |>.insert
      ⟨"cy", .text "cy", ⟨.integer 9, false, none⟩⟩)

/-- The checkpoint of the surroundings. -/
lemma loaded_started :
    started.loaded "store" startedReader = .ok (some (.partitioned kept ["7", "bo"])) := by
  have hfile : Rehearsal.load started.files (Location.of "store" "db" "journal") =
      .ok (some (Checkpoint.encode (.partitioned kept ["7", "bo"]))) := by decide +kernel
  have hdecode : Checkpoint.decode .integer true
      (Checkpoint.encode (.partitioned kept ["7", "bo"])) = .ok (.partitioned kept ["7", "bo"]) :=
    Checkpoint.decode_encode_partitioned (by decide) (by decide)
  exact congrArg Prod.fst (Rehearsal.perform_load hfile hdecode)

/-- The journal is opened with these owners. -/
lemma opening_started :
    started.opening "store" source startedDescriptor schema ⟨0, 0⟩ =
      .ok (startedReader, startedOwners) := by
  have hreader : Opening.readerOf source startedDescriptor schema ⟨0, 0⟩ = .ok startedReader := rfl
  rw [Rehearsal.opening_eq hreader, loaded_started]
  with_unfolding_all rfl

/-- The owners are reconciled. -/
theorem opening_started_reconciled :
    started.opening "store" source startedDescriptor schema ⟨0, 0⟩ =
        .ok (startedReader, startedOwners) ∧
      startedReader.selection.identity = some ⟨"owner", "TEXT", "TEXT", .text, true⟩ ∧
      ∃ checkpoint q rows ps,
        Opening.usable (started.loaded "store" startedReader) = .ok checkpoint ∧
        startedDescriptor.minimumQuery startedReader.selection
          ⟨"owner", "TEXT", "TEXT", .text, true⟩ = some q ∧
        started.rowsOf q started.responses.head? = .ok rows ∧
        startedOwners = .partitioned ps ∧
        ps.Reconciled startedDescriptor.cursor startedReader.kind
          ⟨"owner", "TEXT", "TEXT", .text, true⟩ (Opening.persistedPartitions checkpoint).1
          (Opening.persistedPartitions checkpoint).2 rows :=
  ⟨opening_started, rfl, Rehearsal.opening_reconciles opening_started rfl⟩

end Journal

end TableTail
