import TableTail.Proofs.Tail.Collation
import TableTail.Proofs.Tail.Tracked

/-!
# Identities that are tracked once

Partitions are told apart by texts, and their rows are selected by cells. No row is selected by two
partitions as long as each identity that is named, by the configuration or by the checkpoint, is
spelled as the database spells it, and equal cells have one text. A named identity that is spelled
otherwise, such as a number with a leading zero, is tracked besides the database's own spelling, and
its rows are read twice (`tracked_once`).
-/

namespace TableTail

/-- Two slots of one identity are one. -/
lemma Partitions.WellFormed.slot_unique {ps : Partitions} (h : ps.WellFormed) {i j : Nat}
    {p q : Partition} (hp : ps.slot? i = some p) (hq : ps.slot? j = some q)
    (hidentity : p.identity = q.identity) : i = j := by
  have hi := (h.indexed p.identity i).2 (by rw [show ps.slots[i]? = some p from hp]; rfl)
  have hj := (h.indexed q.identity j).2 (by rw [show ps.slots[j]? = some q from hq]; rfl)
  rw [hidentity, hj] at hi
  exact (Option.some.inj hi).symm

namespace Collation

/-- No cell is selected by two of the slots. -/
def SelectsOnce (k : Collation) (ps : Partitions) : Prop :=
  ∀ i j p q cell, ps.slot? i = some p → ps.slot? j = some q → k.held cell →
    k.equal p.param cell → k.equal q.param cell → i = j

variable {k : Collation} {column : Sql.Column} {c : CursorSettings} {names : List String}
  {cell : Sql.Cell} {identity : String}

/-- The database may answer one row. -/
lemma answers_singleton (hcell : k.held cell) (minimum : Sql.Cell) :
    k.Answers [minimumRow cell minimum] := by
  obtain ⟨text, htext⟩ := k.exists_text hcell
  refine ⟨fun row hrow identity cell' hidentity => ?_, List.pairwise_singleton _ _⟩
  rw [List.mem_singleton.1 hrow, identityOf?_minimumRow htext] at hidentity
  obtain ⟨-, rfl⟩ := Prod.mk.inj (Option.some.inj hidentity)
  exact hcell

/-- A partition selects only cells that have its identity as their text. -/
lemma text?_of_stems {p : Partition} (h : p.Stems column c names k.Answers) (hexact : k.Exact)
    (hspells : ∀ identity ∈ names, Opening.admits c identity = true → k.Spells column identity)
    (hcell : k.held cell) (hequal : k.equal p.param cell) : cell.text? = some p.identity := by
  cases h with
  | named hnamed hadmitted hparam =>
    exact hspells _ hnamed hadmitted cell hcell (hparam ▸ hequal)
  | answered hrows hrow hidentity =>
    have hheld := hrows.held _ hrow _ _ hidentity
    rw [← hexact _ _ hheld hcell hequal, text?_of_identityOf? hidentity]

/-- No cell is selected twice where all identities are spelled as the database spells them. -/
lemma selectsOnce_of_spells {ps : Partitions} (hwell : ps.WellFormed)
    (hstems : ∀ p ∈ ps.slots, p.Stems column c names k.Answers) (hexact : k.Exact)
    (hspells : ∀ identity ∈ names, Opening.admits c identity = true → k.Spells column identity) :
    k.SelectsOnce ps := by
  intro i j p q cell hp hq hcell hpcell hqcell
  have hptext := text?_of_stems (hstems p (List.mem_of_getElem? hp)) hexact hspells hcell hpcell
  have hqtext := text?_of_stems (hstems q (List.mem_of_getElem? hq)) hexact hspells hcell hqcell
  exact hwell.slot_unique hp hq (Option.some.inj (hptext.symm.trans hqtext))

/-- Where no cell is selected twice, identities whose partitions select one cell are the same. -/
lemma SelectsOnce.identity_eq {ps : Partitions} (h : k.SelectsOnce ps) (hwell : ps.WellFormed)
    {s t : String} {p q : Partition} (hp : ps.get? s = some p) (hq : ps.get? t = some q)
    (hcell : k.held cell) (hpcell : k.equal p.param cell) (hqcell : k.equal q.param cell) :
    s = t := by
  obtain ⟨hpslot, rfl⟩ := hwell.get?_eq_some_iff.1 hp
  obtain ⟨hqslot, rfl⟩ := hwell.get?_eq_some_iff.1 hq
  obtain ⟨i, hi⟩ := List.mem_iff_getElem?.1 hpslot
  obtain ⟨j, hj⟩ := List.mem_iff_getElem?.1 hqslot
  obtain rfl := h i j p q cell hi hj hcell hpcell hqcell
  rw [Option.some.inj (hi.symm.trans hj)]

end Collation

namespace Opening

variable {c : CursorSettings} {s : Starts} {column : Sql.Column} {cell minimum : Sql.Cell}
  {identity other : String}

/-- The identity of the only row. -/
lemma get?_identitiesOf_minimumRow (h : cell.text? = some identity) :
    Named.get? other (identitiesOf [minimumRow cell minimum]) =
      if other = identity then some cell else none := by
  simp [identitiesOf, identityOf?_minimumRow h, Named.ofPairs, Named.set, Named.get?, eq_comm]

/-- The only row's identity is tracked with its cell. -/
lemma get?_opened_minimumRow (hnames : Named.names s.configured = Named.names c.starts)
    (h : cell.text? = some identity) (hadmitted : admits c identity = true) :
    (opened c s column [minimumRow cell minimum]).get? identity =
      some (s.partition identity cell) := by
  refine (get?_opened hnames).2 ⟨hadmitted, cell, rfl, .inl ?_⟩
  rw [get?_identitiesOf_minimumRow h, if_pos rfl]

/-- A named identity that is not in the only row is tracked with the cell of its text. -/
lemma get?_opened_named (hnames : Named.names s.configured = Named.names c.starts)
    (h : cell.text? = some identity) (hne : other ≠ identity)
    (hnamed : other ∈ named c s.persisted) (hadmitted : admits c other = true) :
    (opened c s column [minimumRow cell minimum]).get? other =
      some (s.partition other (identityCell column other)) := by
  refine (get?_opened hnames).2 ⟨hadmitted, _, rfl, .inr ⟨?_, hnamed, rfl⟩⟩
  rw [get?_identitiesOf_minimumRow h, if_neg hne]

/-- An identity that is neither in the only row nor named is not tracked. -/
lemma get?_opened_eq_none (hnames : Named.names s.configured = Named.names c.starts)
    (h : cell.text? = some identity) (hne : other ≠ identity)
    (hnamed : other ∉ named c s.persisted) :
    (opened c s column [minimumRow cell minimum]).get? other = none := by
  refine Option.eq_none_iff_forall_ne_some.2 fun p hp => ?_
  obtain ⟨-, param, -, hparam | hparam⟩ := (get?_opened hnames).1 hp
  · rw [get?_identitiesOf_minimumRow h, if_neg hne] at hparam
    cases hparam
  · exact hnamed hparam.2.1

end Opening

/-- A mark is read back from the cell as which it is bound. -/
lemma Mark.ofCell?_toCell (m : Mark) : ofCell? m.kind m.toCell = some m := by
  cases m <;> rfl

/-- A discovery of one row whose identity was not tracked tracks it with its cell. -/
lemma Partitions.WellFormed.get?_adopt_minimumRow {ps : Partitions} (h : ps.WellFormed)
    {cell : Sql.Cell} {identity : String} (htext : cell.text? = some identity)
    (hnew : ps.get? identity = none) {kind : MarkKind} {m : Mark} (hkind : m.kind = kind) :
    (ps.adopt kind [minimumRow cell m.toCell]).get? identity =
      some ⟨identity, cell, ⟨m, true, none⟩⟩ := by
  subst hkind
  have hminimum : (minimumRow cell m.toCell).get? Selection.minimumLabel = some m.toCell := rfl
  rw [h.get?_adopt, hnew]
  simp [Partition.ofMinimum?, identityOf?_minimumRow htext, hminimum, Mark.ofCell?_toCell]

section

variable {k : Collation} {files : Files} {root : String} {source : Source} {d : Descriptor}
  {schema : Schema} {idlePolicy : IdlePolicy} {r : Reader} {column : Sql.Column} {c : Cursor}
  {rows : List Sql.Row}

/-- A table that can be opened can be opened whatever its database answers. -/
lemma Files.run_open_any
    (hopen : (files.run rows (Reader.open root source d schema idlePolicy)).1 = .ok (r, c))
    (hcolumn : r.selection.identity = some column) :
    ∃ s : Opening.Starts, Named.names s.configured = Named.names d.cursor.starts ∧
      s.persisted = files.persisted root r ∧
      ∀ rows, (files.run rows (Reader.open root source d schema idlePolicy)).1 =
        .ok (r, .partitioned (Opening.opened d.cursor s column rows)) := by
  obtain ⟨hreader, s, hstarts, -⟩ := (run_open_partitioned hcolumn rows).1 hopen
  obtain rfl := Opening.descriptor_of_readerOf hreader
  obtain ⟨hconfigured, hpersisted⟩ := names_of_starts hstarts
  exact ⟨s, hconfigured, hpersisted, fun rows =>
    (run_open_partitioned hcolumn rows).2 ⟨hreader, s, hstarts, rfl⟩⟩

/-- A table that never tracks a cell twice names identities as the database spells them. -/
lemma spells_of_selectsOnce
    (hopen : (files.run rows (Reader.open root source d schema idlePolicy)).1 = .ok (r, c))
    (hcolumn : r.selection.identity = some column) (hincludes : d.cursor.includes = [])
    (hexcludes : d.cursor.excludes = [])
    (honce : ∀ c', r.Reached k.Answers files root source d schema idlePolicy c' →
      k.SelectsOnce c'.partitions) {identity : String}
    (hnamed : identity ∈ Opening.named d.cursor (files.persisted root r)) :
    k.Spells column identity := by
  intro cell hcell hequal
  obtain ⟨s, hconfigured, hpersisted, hopens⟩ := Files.run_open_any hopen hcolumn
  obtain ⟨text, htext⟩ := k.exists_text hcell
  rw [htext, Option.some.injEq]
  by_contra hne
  -- the table is opened while the database holds this cell only
  have hreached := Reader.Reached.opened (k.answers_singleton hcell .null) (hopens _)
  have hown : (Opening.opened d.cursor s column [minimumRow cell .null]).get? text =
      some (s.partition text cell) :=
    Opening.get?_opened_minimumRow hconfigured htext (Opening.admits_of_nil hincludes hexcludes)
  have hother : (Opening.opened d.cursor s column [minimumRow cell .null]).get? identity =
      some (s.partition identity (identityCell column identity)) :=
    Opening.get?_opened_named hconfigured htext (Ne.symm hne) (hpersisted ▸ hnamed)
      (Opening.admits_of_nil hincludes hexcludes)
  exact hne ((honce _ hreached).identity_eq Opening.wellFormed_partitions hown hother hcell
    (k.equal_self hcell) hequal)

/-- A table that discovers and never tracks a cell twice has one text for equal cells, apart from
texts that are named. -/
lemma text?_eq_of_selectsOnce
    (hopen : (files.run rows (Reader.open root source d schema idlePolicy)).1 = .ok (r, c))
    (hcolumn : r.selection.identity = some column) (hincludes : d.cursor.includes = [])
    (hexcludes : d.cursor.excludes = []) (hdiscover : d.cursor.discover = true)
    (honce : ∀ c', r.Reached k.Answers files root source d schema idlePolicy c' →
      k.SelectsOnce c'.partitions) {a b : Sql.Cell} (ha : k.held a) (hb : k.held b)
    (hequal : k.equal a b) {identity : String} (hidentity : b.text? = some identity)
    (hnamed : identity ∉ Opening.named d.cursor (files.persisted root r)) :
    a.text? = some identity := by
  obtain ⟨s, hconfigured, hpersisted, hopens⟩ := Files.run_open_any hopen hcolumn
  obtain ⟨text, htext⟩ := k.exists_text ha
  rw [htext, Option.some.injEq]
  by_contra hne
  -- the table is opened while the database answers one cell, and then it answers the other
  have hreached := (Reader.Reached.opened (k.answers_singleton ha .null) (hopens _)).discovered
    (k.answers_singleton hb (Mark.zero r.kind).toCell)
  obtain rfl := Opening.descriptor_of_readerOf ((Files.run_open_eq_ok_iff rows).1 hopen).1
  rw [Reader.discovered_eq hcolumn, if_pos hdiscover] at hreached
  obtain ⟨ps, hps⟩ : ∃ ps, Opening.opened r.descriptor.cursor s column [minimumRow a .null] = ps :=
    ⟨_, rfl⟩
  have hwell : ps.WellFormed := hps ▸ Opening.wellFormed_partitions
  have hown : ps.get? text = some (s.partition text a) := hps ▸
    Opening.get?_opened_minimumRow hconfigured htext (Opening.admits_of_nil hincludes hexcludes)
  have hnone : ps.get? identity = none := hps ▸
    Opening.get?_opened_eq_none hconfigured htext (Ne.symm hne) (hpersisted ▸ hnamed)
  rw [hps] at hreached
  have hkept : (ps.adopt r.kind [minimumRow b (Mark.zero r.kind).toCell]).get? text =
      some (s.partition text a) := by rw [hwell.get?_adopt, hown, Option.some_or]
  have hother := hwell.get?_adopt_minimumRow hidentity hnone (Mark.kind_zero r.kind)
  exact hne ((honce _ hreached).identity_eq (hwell.foldl_insert _) hkept hother hb hequal
    (k.equal_self hb))

/-- Whatever its configuration, its checkpoint and its database hold, a table tracks nothing twice
if equal cells have one text and the named identities are spelled as the database spells them. If it
tracks nothing twice, and nothing is included or excluded, they are spelled so; and if it discovers
identities too, equal cells have one text, apart from texts that are named. -/
theorem tracked_once
    (hopen : (files.run rows (Reader.open root source d schema idlePolicy)).1 = .ok (r, c))
    (hcolumn : r.selection.identity = some column) :
    (k.Exact →
      (∀ identity ∈ Opening.named d.cursor (files.persisted root r),
        Opening.admits d.cursor identity = true → k.Spells column identity) →
      ∀ c', r.Reached k.Answers files root source d schema idlePolicy c' →
        k.SelectsOnce c'.partitions) ∧
    (d.cursor.includes = [] → d.cursor.excludes = [] →
      (∀ c', r.Reached k.Answers files root source d schema idlePolicy c' →
        k.SelectsOnce c'.partitions) →
      (∀ identity ∈ Opening.named d.cursor (files.persisted root r), k.Spells column identity) ∧
      (d.cursor.discover = true → ∀ a b, k.held a → k.held b → k.equal a b →
        ∀ identity ∉ Opening.named d.cursor (files.persisted root r), b.text? = some identity →
          a.text? = some identity)) := by
  constructor
  · intro hexact hspells c' hreached
    obtain ⟨ps, rfl, hwell, hstems⟩ := hreached.stems hcolumn
    exact Collation.selectsOnce_of_spells hwell hstems hexact hspells
  · intro hincludes hexcludes honce
    constructor
    · intro identity hnamed
      exact spells_of_selectsOnce hopen hcolumn hincludes hexcludes honce hnamed
    · intro hdiscover a b ha hb hequal identity hnamed hidentity
      exact text?_eq_of_selectsOnce hopen hcolumn hincludes hexcludes hdiscover honce ha hb hequal
        hidentity hnamed

/-- A table in SQLite whose identities are texts tracks nothing twice. -/
theorem Reader.Reached.selectsOnce_of_text {stored : StoredColumn}
    (h : r.Reached (r.selection.collation stored).Answers files root source d schema idlePolicy c)
    (hdialect : r.selection.dialect = .sqlite) (hcolumn : r.selection.identity = some column)
    (hname : StoredTable.foldName stored.name = StoredTable.foldName column.name)
    (haffinity : Affinity.ofDeclared stored.declared = .text)
    (hinteger : column.kind ≠ .integer) (hdecimal : column.kind ≠ .decimal) :
    (r.selection.collation stored).SelectsOnce c.partitions := by
  obtain ⟨ps, rfl, hwell, hstems⟩ := h.stems hcolumn
  exact Collation.selectsOnce_of_spells hwell hstems
    (Selection.exact_of_text hdialect hcolumn hname haffinity)
    fun identity _ _ => Selection.spells_of_text hdialect hcolumn hname haffinity hinteger hdecimal
      identity

end

namespace Journal

/-- The journal with owners that are numbers; a start is configured for one of them, with a leading
zero. -/
def numbered : Descriptor :=
  { descriptor with cursor := { descriptor.cursor with starts := [("07", "0")] } }

/-- The column of the owners' numbers. -/
def ownerNumber : Sql.Column := ⟨"owner", "INTEGER", "INTEGER", .integer, true⟩

/-- The columns of the table. -/
def numberedSchema : Schema :=
  ⟨"journal", [⟨"id", "INTEGER", "INTEGER", .integer, false⟩, ownerNumber]⟩

/-- The open table. -/
def numberedReader : Reader :=
  ⟨numbered, numberedSchema, { selection with identity := some ownerNumber }, "db", .integer,
    ⟨0, 0⟩⟩

/-- How SQLite compares the owners' numbers. -/
def numbers : Collation := numberedReader.selection.collation ⟨"owner", "INTEGER", true⟩

/-- The owner with the leading zero is tracked twice. -/
theorem tracked_twice_numbered :
    ¬ ∀ c, numberedReader.Reached numbers.Answers (fun _ => none) "." source numbered numberedSchema
      ⟨0, 0⟩ c → numbers.SelectsOnce c.partitions := by
  intro honce
  have hopen : (Files.run [] (fun _ => none)
      (Reader.open "." source numbered numberedSchema ⟨0, 0⟩)).1 =
        .ok (numberedReader, .partitioned
          (Partitions.empty.insert ⟨"07", .integer 7, ⟨.integer 0, false, none⟩⟩)) := rfl
  obtain ⟨hspells, -⟩ := (tracked_once hopen rfl).2 rfl rfl honce
  have hheld : numbers.held (.integer 7) := ⟨by simp, ⟨.integer 7, rfl, rfl⟩, rfl⟩
  have hequal : numbers.equal (identityCell ownerNumber "07") (.integer 7) := rfl
  have htext := hspells "07" (by decide) (.integer 7) hheld hequal
  have hown : (Sql.Cell.integer 7).text? = some "7" := by decide +kernel
  exact absurd (hown.symm.trans htext) (by decide)

end Journal

end TableTail
