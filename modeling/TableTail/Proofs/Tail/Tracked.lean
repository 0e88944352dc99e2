import TableTail.Proofs.Checkpoint.Restart

/-!
# Tracked identities

Which identities are tracked after a table with partitions was opened, and by which cell the rows of
each are selected. An identity that the database answered when the table was opened has the
database's cell, and one that was only named by the configuration or the checkpoint has the cell
that its text is read as (`Opening.get?_opened`). A discovery adds what was not tracked, with the
database's cell (`Partitions.WellFormed.get?_adopt`); these are the only ways to be tracked
(`Reader.Reached.stems`).
-/

namespace TableTail

/-- The identity in a row has the text of its cell. -/
lemma text?_of_identityOf? {row : Sql.Row} {identity : String} {cell : Sql.Cell}
    (h : identityOf? row = some (identity, cell)) : cell.text? = some identity := by
  obtain ⟨cell', -, hcell⟩ := Option.bind_eq_some_iff.1 h
  obtain ⟨text, htext, hpair⟩ := Option.map_eq_some_iff.1 hcell
  obtain ⟨rfl, rfl⟩ := Prod.mk.inj hpair
  exact htext

/-- The partition of a row has the identity in the row and selects by its cell. -/
lemma identityOf?_of_ofMinimum? {kind : MarkKind} {row : Sql.Row} {p : Partition}
    (h : Partition.ofMinimum? kind row = some p) :
    identityOf? row = some (p.identity, p.param) := by
  simp only [Partition.ofMinimum?, Option.bind_eq_bind, Option.bind_eq_some_iff] at h
  obtain ⟨⟨identity, param⟩, hidentity, m, -, hp⟩ := h
  obtain rfl := Option.some.inj hp
  exact hidentity

/-- A row of a minimum query. -/
def minimumRow (identity minimum : Sql.Cell) : Sql.Row :=
  ⟨[Selection.identityLabel, Selection.minimumLabel], [identity, minimum]⟩

/-- The identity in a row of a minimum query. -/
lemma identityOf?_minimumRow {cell minimum : Sql.Cell} {identity : String}
    (h : cell.text? = some identity) :
    identityOf? (minimumRow cell minimum) = some (identity, cell) := by
  have hget : (minimumRow cell minimum).get? Selection.identityLabel = some cell := rfl
  rw [identityOf?, hget, Option.bind_some, h, Option.map_some]

namespace Partitions.WellFormed

variable {ps : Partitions} {identity : String}

/-- What is tracked can be looked up. -/
lemma isSome_get?_iff (h : ps.WellFormed) :
    (ps.get? identity).isSome = true ↔ ps.has identity = true := by
  rw [Option.isSome_iff_exists, h.has_iff, List.mem_map]
  simp only [h.get?_eq_some_iff]

/-- A partition that is added is tracked unless its identity already was. -/
lemma get?_insert (h : ps.WellFormed) (p : Partition) :
    (ps.insert p).get? identity =
      (ps.get? identity).or (if p.identity = identity then some p else none) := by
  by_cases hp : ps.has p.identity = true
  · have hsame : ps.insert p = ps := if_pos hp
    rw [hsame]
    rcases eq_or_ne p.identity identity with rfl | hne
    · obtain ⟨q, hq⟩ := Option.isSome_iff_exists.1 (h.isSome_get?_iff.2 hp)
      simp [hq]
    · simp [hne]
  · have hslots : (ps.insert p).slots = ps.slots ++ [p] := by simp [Partitions.insert, hp]
    have hnone : ps.get? p.identity = none := by
      rwa [← Option.not_isSome_iff_eq_none, h.isSome_get?_iff]
    refine Option.ext fun q => ?_
    rw [(h.insert p).get?_eq_some_iff, hslots, List.mem_append, List.mem_singleton, or_and_right,
      ← h.get?_eq_some_iff]
    rcases eq_or_ne p.identity identity with rfl | hne
    · simp only [hnone, Option.none_or, if_true, reduceCtorEq, false_or, Option.some.injEq]
      exact ⟨fun hq => hq.1.symm, fun hq => ⟨hq.symm, hq ▸ rfl⟩⟩
    · have hother : ¬ (q = p ∧ q.identity = identity) := fun hq => hne (hq.1 ▸ hq.2)
      simp [hne, hother]

/-- Of the partitions that are added the first one with an identity is tracked, unless the identity
already was. -/
lemma get?_foldl_insert (h : ps.WellFormed) (l : List Partition) :
    (l.foldl Partitions.insert ps).get? identity =
      (ps.get? identity).or (l.find? fun p => p.identity = identity) := by
  induction l generalizing ps with
  | nil => simp
  | cons p rest ih =>
    rw [List.foldl_cons, ih (h.insert p), h.get?_insert, Option.or_assoc, List.find?_cons]
    by_cases hp : p.identity = identity <;> simp [hp]

/-- A discovery leaves what was tracked and adds the first row of each other identity. -/
lemma get?_adopt (h : ps.WellFormed) (kind : MarkKind) (rows : List Sql.Row) :
    (ps.adopt kind rows).get? identity = (ps.get? identity).or
      ((rows.filterMap (Partition.ofMinimum? kind)).find? fun p => p.identity = identity) :=
  h.get?_foldl_insert _

end Partitions.WellFormed

namespace Opening

variable {c : CursorSettings} {s : Starts} {column : Sql.Column} {rows : List Sql.Row}
  {identity : String} {p : Partition}

/-- Without includes and excludes all identities are admitted. -/
lemma admits_of_nil (hincludes : c.includes = []) (hexcludes : c.excludes = []) :
    admits c identity = true := by simp [admits, hincludes, hexcludes]

/-- The identities that the configuration or a checkpoint names. -/
def named (c : CursorSettings) (persisted : Named Mark) : List String :=
  Named.names c.starts ++ Named.names persisted ++ c.includes

/-- Marks are read for the identities that have configured texts. -/
lemma names_of_readStarts {table : String} {kind : MarkKind} {starts : Named String}
    {marks : Named Mark} (h : readStarts table kind starts = .ok marks) :
    Named.names marks = Named.names starts := by
  induction starts generalizing marks with
  | nil =>
    obtain rfl := Except.ok.inj h
    rfl
  | cons start rest ih =>
    obtain ⟨m, others, -, hrest, rfl⟩ := readStarts_cons h
    exact congrArg (start.1 :: ·) (ih hrest)

/-- What is usable of what was loaded is what was loaded, if anything was. -/
lemma join_of_usable {loaded : Except Failure (Option Checkpoint)} {checkpoint : Option Checkpoint}
    (h : usable loaded = .ok checkpoint) : loaded.toOption.join = checkpoint := by
  unfold usable at h
  split at h
  · obtain rfl := Except.ok.inj h
    rfl
  · rw [h]
    rfl

/-- The partitions that a table is opened with when its database answers some rows. -/
def opened (c : CursorSettings) (s : Starts) (column : Sql.Column) (rows : List Sql.Row) :
    Partitions :=
  partitions c s (addIdentities column (identitiesOf rows)
    (Named.names s.configured ++ Named.names s.persisted ++ c.includes))

/-- An identity that the database answers is one of those in its rows. -/
lemma mem_of_get?_identitiesOf {param : Sql.Cell}
    (h : Named.get? identity (identitiesOf rows) = some param) :
    (identity, param) ∈ rows.filterMap identityOf? := by
  rw [identitiesOf, Named.get?_ofPairs] at h
  exact List.mem_reverse.1 (Named.mem_of_get? h)

/-- An identity is tracked with the cell that the database answers for it, or, when it is only
named, with the cell that its text is read as. -/
lemma get?_opened (hnames : Named.names s.configured = Named.names c.starts) :
    (opened c s column rows).get? identity = some p ↔
      admits c identity = true ∧ ∃ param, p = s.partition identity param ∧
        (Named.get? identity (identitiesOf rows) = some param ∨
          Named.get? identity (identitiesOf rows) = none ∧
            identity ∈ named c s.persisted ∧ identityCell column identity = param) := by
  have hsorted : Named.Sorted (addIdentities column (identitiesOf rows)
      (Named.names s.configured ++ Named.names s.persisted ++ c.includes)) :=
    sorted_addIdentities (Named.sorted_ofPairs _)
  rw [opened, get?_partitions hsorted]
  simp only [get?_addIdentities, Option.or_eq_some_iff, hnames, named,
    Option.ite_none_right_eq_some, Option.some.injEq]
  constructor
  · rintro ⟨param, hparam, hadmitted, rfl⟩
    exact ⟨hadmitted, param, rfl, hparam⟩
  · rintro ⟨hadmitted, param, rfl, hparam⟩
    exact ⟨param, hparam, hadmitted, rfl⟩

end Opening

namespace Files

variable {files : Files} {root : String} {source : Source} {d : Descriptor} {schema : Schema}
  {idlePolicy : IdlePolicy} {r : Reader} {column : Sql.Column} {cursor : Cursor}

/-- The marks that the checkpoint of a table keeps, none if it cannot be loaded. -/
def persisted (files : Files) (root : String) (r : Reader) : Named Mark :=
  (Opening.persistedPartitions (files.loaded root r).toOption.join).1

/-- The starts are those that are configured and those that are persisted. -/
lemma starts_eq_ok {s : Opening.Starts} (h : files.starts root r = .ok s) :
    Opening.readDefault r.name r.kind r.descriptor.cursor.defaultStart = .ok s.byDefault ∧
      Opening.readStarts r.name r.kind r.descriptor.cursor.starts = .ok s.configured ∧
      s.persisted = files.persisted root r ∧ s.kind = r.kind := by
  unfold starts at h
  cases hdefault : Opening.readDefault r.name r.kind r.descriptor.cursor.defaultStart with
  | error e => simp [hdefault, bind, Except.bind] at h
  | ok byDefault =>
    cases husable : Opening.usable (files.loaded root r) with
    | error e => simp [hdefault, husable, bind, Except.bind] at h
    | ok checkpoint =>
      cases hstarts : Opening.readStarts r.name r.kind r.descriptor.cursor.starts with
      | error e => simp [hdefault, husable, hstarts, bind, Except.bind] at h
      | ok configured =>
        simp only [hdefault, husable, hstarts, bind, Except.bind, pure, Except.pure,
          Except.ok.injEq] at h
        subst h
        rw [persisted, Opening.join_of_usable husable]
        exact ⟨rfl, rfl, rfl, rfl⟩

/-- The identities with a start are those that are configured and those that are persisted. -/
lemma names_of_starts {s : Opening.Starts} (h : files.starts root r = .ok s) :
    Named.names s.configured = Named.names r.descriptor.cursor.starts ∧
      s.persisted = files.persisted root r := by
  obtain ⟨-, hconfigured, hpersisted, -⟩ := starts_eq_ok h
  exact ⟨Opening.names_of_readStarts hconfigured, hpersisted⟩

/-- A table is opened with its reader, at its initial cursor. -/
lemma run_open_eq_ok_iff (rows : List Sql.Row) :
    (files.run rows (Reader.open root source d schema idlePolicy)).1 = .ok (r, cursor) ↔
      Opening.readerOf source d schema idlePolicy = .ok r ∧
        (files.run rows (Opening.initialCursor root r)).1 = .ok cursor := by
  unfold Reader.open
  cases hreader : Opening.readerOf source d schema idlePolicy with
  | error fault => simp [run, Program.run]
  | ok r' =>
    simp only [Program.bind_eq, run_bind]
    cases hinitial : (files.run rows (Opening.initialCursor root r')).1 with
    | error e =>
      constructor
      · intro h
        cases h
      · rintro ⟨hr, h⟩
        rw [← Except.ok.inj hr, hinitial] at h
        cases h
    | ok cursor' =>
      constructor
      · intro h
        obtain ⟨rfl, rfl⟩ := Prod.mk.inj (Except.ok.inj h)
        exact ⟨rfl, hinitial⟩
      · rintro ⟨hr, h⟩
        obtain rfl := Except.ok.inj hr
        rw [hinitial] at h
        obtain rfl := Except.ok.inj h
        rfl

/-- A table with partitions that is opened tracks what the database answers and what is named. -/
lemma run_open_partitioned (hcolumn : r.selection.identity = some column) (rows : List Sql.Row) :
    (files.run rows (Reader.open root source d schema idlePolicy)).1 = .ok (r, cursor) ↔
      Opening.readerOf source d schema idlePolicy = .ok r ∧ ∃ s, files.starts root r = .ok s ∧
        cursor = .partitioned (Opening.opened r.descriptor.cursor s column rows) := by
  rw [run_open_eq_ok_iff, run_initialCursor hcolumn]
  cases files.starts root r with
  | error e => simp [Except.map]
  | ok s => simp [Except.map, Opening.opened, eq_comm]

end Files

namespace Reader

/-- Surroundings of an open table whose database answers a query with some rows. -/
def answer (r : Reader) (rows : List Sql.Row) : (q : Action) → Cursor → q.Answer × Cursor
  | .query _, c => (.ok rows, c)
  | .exchange table change, c => (c, if table = r.name then change c else c)
  | .load _, c => (.ok none, c)
  | .save _ _, c => (.ok (), c)
  | .emit _, c => (.ok (), c)
  | .describe _, c => (.ok none, c)
  | .enter _, c => ((), c)
  | .leave _, c => ((), c)
  | .clock, c => ((0 : Nat), c)

/-- The cursor after a discovery in which the database answers some rows. -/
def discovered (r : Reader) (rows : List Sql.Row) (c : Cursor) : Cursor :=
  (r.discover.run (r.answer rows) (fun _ c => c) c).2

variable {r : Reader} {column : Sql.Column}

/-- A discovery adds the partitions of the rows, if the table discovers at all. -/
lemma discovered_eq (hcolumn : r.selection.identity = some column) (rows : List Sql.Row)
    (c : Cursor) :
    r.discovered rows c = if r.descriptor.cursor.discover then c.adopt r.kind rows else c := by
  obtain ⟨q, hq⟩ : ∃ q, r.descriptor.minimumQuery r.selection column = some q := by
    simp [Descriptor.minimumQuery, Selection.minimums, hcolumn]
  unfold discovered discover
  simp only [hcolumn, hq]
  split
  · simp [Program.run, Program.bind_eq, Program.run_bind, Activity.query, Activity.exchange, answer]
  · rfl

/-- The cursors of a table that is opened and in which identities are then discovered any number of
times, when its database answers each query with rows of some kind. -/
inductive Reached (r : Reader) (answered : List Sql.Row → Prop) (files : Files) (root : String)
    (source : Source) (d : Descriptor) (schema : Schema) (idlePolicy : IdlePolicy) : Cursor → Prop
  | opened {rows : List Sql.Row} {c : Cursor} (hrows : answered rows)
      (h : (files.run rows (Reader.open root source d schema idlePolicy)).1 = .ok (r, c)) :
      Reached r answered files root source d schema idlePolicy c
  | discovered {rows : List Sql.Row} {c : Cursor}
      (h : Reached r answered files root source d schema idlePolicy c) (hrows : answered rows) :
      Reached r answered files root source d schema idlePolicy (r.discovered rows c)

end Reader

/-- Where a partition comes from: its identity was named and admitted and its cell is what the
identity's text is read as, or both were in a row that the database answered. -/
inductive Partition.Stems (p : Partition) (column : Sql.Column) (c : CursorSettings)
    (names : List String) (answered : List Sql.Row → Prop) : Prop
  | named (h : p.identity ∈ names) (hadmitted : Opening.admits c p.identity = true)
      (hcell : p.param = identityCell column p.identity)
  | answered {rows : List Sql.Row} {row : Sql.Row} (h : answered rows) (hrow : row ∈ rows)
      (hidentity : identityOf? row = some (p.identity, p.param))

namespace Reader.Reached

variable {r : Reader} {answered : List Sql.Row → Prop} {files : Files} {root : String}
  {source : Source} {d : Descriptor} {schema : Schema} {idlePolicy : IdlePolicy} {c : Cursor}
  {column : Sql.Column}

/-- All that is tracked was named or answered, and no identity is tracked twice. -/
theorem stems (h : r.Reached answered files root source d schema idlePolicy c)
    (hcolumn : r.selection.identity = some column) :
    ∃ ps, c = .partitioned ps ∧ ps.WellFormed ∧ ∀ p ∈ ps.slots,
      p.Stems column d.cursor (Opening.named d.cursor (files.persisted root r)) answered := by
  induction h with
  | @opened rows c hrows hopen =>
    obtain ⟨hreader, s, hstarts, rfl⟩ := (Files.run_open_partitioned hcolumn rows).1 hopen
    obtain rfl := Opening.descriptor_of_readerOf hreader
    obtain ⟨hconfigured, hpersisted⟩ := Files.names_of_starts hstarts
    have hwell : (Opening.opened r.descriptor.cursor s column rows).WellFormed :=
      Opening.wellFormed_partitions
    refine ⟨_, rfl, hwell, fun p hp => ?_⟩
    have hget := hwell.get?_eq_some_iff.2 ⟨hp, rfl⟩
    obtain ⟨hadmitted, param, hstart, hknown⟩ := (Opening.get?_opened hconfigured).1 hget
    have hparam : p.param = param := congrArg Partition.param hstart
    rcases hknown with hknown | ⟨-, hnamed, hcell⟩
    · have hgroup := Opening.mem_of_get?_identitiesOf hknown
      obtain ⟨row, hrow, hidentity⟩ := List.mem_filterMap.1 hgroup
      exact .answered hrows hrow (hparam ▸ hidentity)
    · exact .named (hpersisted ▸ hnamed) hadmitted (hparam.trans hcell.symm)
  | @discovered rows c _ hrows ih =>
    obtain ⟨ps, rfl, hwell, hstems⟩ := ih
    rw [discovered_eq hcolumn]
    split
    · refine ⟨_, rfl, hwell.foldl_insert _, fun p hp => ?_⟩
      obtain ⟨added, hadded, hslots⟩ := Partitions.slots_foldl_insert ps
        (rows.filterMap (Partition.ofMinimum? r.kind))
      rw [Partitions.adopt, hslots] at hp
      rcases List.mem_append.1 hp with hp | hp
      · exact hstems p hp
      · obtain ⟨row, hrow, hp⟩ := List.mem_filterMap.1 (hadded.subset hp)
        exact .answered hrows hrow (identityOf?_of_ofMinimum? hp)
    · exact ⟨ps, rfl, hwell, hstems⟩

end Reader.Reached

end TableTail
