import TableTail.Proofs.Tail.Tracked
import TableTail.Proofs.Text.Numerals

/-!
# Groups that are tracked

A database tells the groups of a minimum query apart by their cells, and a table its partitions by
the texts of the cells. Each group has its own partition exactly if the texts tell the groups apart
too (`groups_tracked`). Groups with one text share a partition, which reads the rows of one of them:
of the last one when the table is opened (`Named.get?_ofPairs`), and of the first one when
identities are discovered (`Partitions.WellFormed.get?_adopt`). Integers are told apart by their
texts, and so are texts, but a number and its text are not.
-/

namespace TableTail

/-- Pairs with one name have one value. -/
def Named.Functional {α : Type} (m : Named α) : Prop :=
  ∀ p ∈ m, ∀ q ∈ m, p.1 = q.1 → p.2 = q.2

/-- Each group, given by its text and its cell, has the slot of its text, and its rows are selected
by this slot. -/
def Partitions.Tracks (ps : Partitions) (groups : Named Sql.Cell) : Prop :=
  ∀ g ∈ groups, ∃ p ∈ ps.slots, p.identity = g.1 ∧ p.param = g.2

/-- The groups in the rows of a minimum query. -/
def groupsOf (rows : List Sql.Row) : Named Sql.Cell := rows.filterMap identityOf?

/-- The groups in the rows of a minimum query whose least increment can be read. -/
def readableGroupsOf (kind : MarkKind) (rows : List Sql.Row) : Named Sql.Cell :=
  (rows.filterMap (Partition.ofMinimum? kind)).map fun p => (p.identity, p.param)

section Texts

variable {rows : List Sql.Row}

/-- Groups whose cells are told apart by their texts are told apart by their names. -/
lemma functional_groupsOf (h : ∀ g ∈ groupsOf rows, ∀ g' ∈ groupsOf rows,
    g.2.text? = g'.2.text? → g.2 = g'.2) : (groupsOf rows).Functional := by
  have htext : ∀ g ∈ groupsOf rows, g.2.text? = some g.1 := by
    intro g hg
    obtain ⟨row, -, hrow⟩ := List.mem_filterMap.1 hg
    exact text?_of_identityOf? hrow
  intro g hg g' hg' hname
  exact h g hg g' hg' (by rw [htext g hg, htext g' hg', hname])

/-- Integers are told apart by their texts. -/
theorem functional_groupsOf_integers (h : ∀ g ∈ groupsOf rows, ∃ i, g.2 = .integer i) :
    (groupsOf rows).Functional := by
  refine functional_groupsOf fun g hg g' hg' htext => ?_
  obtain ⟨i, hi⟩ := h g hg
  obtain ⟨j, hj⟩ := h g' hg'
  rw [hi, hj, Sql.Cell.text?, Sql.Cell.text?, Option.some.injEq] at htext
  have hread := Text.readInt64_intText i
  rw [htext, Text.readInt64_intText j] at hread
  rw [hi, hj, Except.ok.inj hread]

/-- Texts are told apart by themselves. -/
theorem functional_groupsOf_texts (h : ∀ g ∈ groupsOf rows, ∃ s, g.2 = .text s) :
    (groupsOf rows).Functional := by
  refine functional_groupsOf fun g hg g' hg' htext => ?_
  obtain ⟨s, hs⟩ := h g hg
  obtain ⟨t, ht⟩ := h g' hg'
  rw [hs, ht, Sql.Cell.text?, Sql.Cell.text?, Option.some.injEq] at htext
  rw [hs, ht, htext]

end Texts

namespace Partitions.WellFormed

variable {ps : Partitions} {groups : Named Sql.Cell}

/-- A group is tracked where its text leads to its cell. -/
lemma tracks_iff (h : ps.WellFormed) :
    ps.Tracks groups ↔ ∀ g ∈ groups, (ps.get? g.1).map (·.param) = some g.2 := by
  refine forall₂_congr fun g _ => ?_
  rw [Option.map_eq_some_iff]
  simp only [h.get?_eq_some_iff, and_assoc]

/-- Groups that are tracked are told apart by their texts. -/
lemma functional_of_tracks (h : ps.WellFormed) (htracks : ps.Tracks groups) :
    groups.Functional := by
  intro g hg g' hg' hname
  have hcell := h.tracks_iff.1 htracks g hg
  rw [hname, h.tracks_iff.1 htracks g' hg'] at hcell
  exact (Option.some.inj hcell).symm

/-- A discovery tracks the readable groups exactly if their texts tell them apart, from each other
and from what was tracked before. -/
theorem tracks_adopt_iff (h : ps.WellFormed) (kind : MarkKind) (rows : List Sql.Row) :
    (ps.adopt kind rows).Tracks (readableGroupsOf kind rows) ↔
      (readableGroupsOf kind rows).Functional ∧
        ∀ g ∈ readableGroupsOf kind rows, ∀ p ∈ ps.slots, p.identity = g.1 → p.param = g.2 := by
  have hadopted : (ps.adopt kind rows).WellFormed := h.foldl_insert _
  constructor
  · intro htracks
    refine ⟨hadopted.functional_of_tracks htracks, fun g hg p hp hidentity => ?_⟩
    have hcell := hadopted.tracks_iff.1 htracks g hg
    have hget := h.get?_eq_some_iff.2 ⟨hp, hidentity⟩
    rw [h.get?_adopt, hget] at hcell
    exact Option.some.inj hcell
  · rintro ⟨hfunctional, htracked⟩
    refine hadopted.tracks_iff.2 fun g hg => ?_
    rw [h.get?_adopt]
    cases hget : ps.get? g.1 with
    | some p =>
      obtain ⟨hp, hidentity⟩ := h.get?_eq_some_iff.1 hget
      rw [Option.some_or, Option.map_some, htracked g hg p hp hidentity]
    | none =>
      -- the first row with the text is found, and has the group's cell
      obtain ⟨p, hp, rfl⟩ := List.mem_map.1 hg
      obtain ⟨q, hq⟩ : ∃ q, (rows.filterMap (Partition.ofMinimum? kind)).find?
          (fun q => q.identity = p.identity) = some q :=
        Option.isSome_iff_exists.1 (List.find?_isSome.2 ⟨p, hp, by simp⟩)
      have hidentity : q.identity = p.identity := by simpa using List.find?_some hq
      have hcell : q.param = p.param :=
        hfunctional _ (List.mem_map.2 ⟨q, List.mem_of_find?_eq_some hq, rfl⟩) _ hg hidentity
      rw [Option.none_or, hq, Option.map_some, hcell]

end Partitions.WellFormed

/-- A table without includes and excludes is opened with all groups tracked exactly if their texts
tell them apart. -/
theorem Opening.tracks_opened_iff {c : CursorSettings} {s : Starts} {column : Sql.Column}
    {rows : List Sql.Row} (hnames : Named.names s.configured = Named.names c.starts)
    (hincludes : c.includes = []) (hexcludes : c.excludes = []) :
    (opened c s column rows).Tracks (groupsOf rows) ↔ (groupsOf rows).Functional := by
  have hwell : (opened c s column rows).WellFormed := wellFormed_partitions
  refine ⟨hwell.functional_of_tracks, fun hfunctional => hwell.tracks_iff.2 fun g hg => ?_⟩
  have hknown : Named.has g.1 (identitiesOf rows) = true := by
    rw [Named.has_iff, ← Named.names, identitiesOf, Named.mem_names_ofPairs]
    exact List.mem_map_of_mem hg
  obtain ⟨param, hparam⟩ := Option.isSome_iff_exists.1 hknown
  have hcell : param = g.2 := hfunctional _ (mem_of_get?_identitiesOf hparam) g hg rfl
  have hget : (opened c s column rows).get? g.1 = some (s.partition g.1 param) :=
    (get?_opened hnames).2 ⟨admits_of_nil hincludes hexcludes, param, rfl, .inl hparam⟩
  rw [hget, Option.map_some, ← hcell]
  rfl

section

variable {files : Files} {root : String} {source : Source} {d : Descriptor} {schema : Schema}
  {idlePolicy : IdlePolicy} {r : Reader} {column : Sql.Column} {c : Cursor} {rows : List Sql.Row}

/-- A table that was opened and used has partitions with a right index. -/
lemma Usage.Run.partitions_wellFormed {u : Usage} (hrun : Usage.Run r (Usage.opening c) u)
    (hopen : (files.run rows (Reader.open root source d schema idlePolicy)).1 = .ok (r, c))
    (hcolumn : r.selection.identity = some column) :
    ∃ ps, u.cursor = .partitioned ps ∧ ps.WellFormed := by
  have hreturns : (Reader.open root source d schema idlePolicy).Returns (.ok (r, c)) :=
    hopen ▸ Program.returns_run _ _ _ _
  obtain ⟨-, hkeeps⟩ := Reader.open_keeps hreturns
  have hcursor := ((Usage.Invariant.opening hkeeps).run hrun).cursor
  cases hu : u.cursor with
  | single after idle =>
    have hmode := hcursor.mode
    rw [hu, Reader.isPartitioned, hcolumn] at hmode
    cases hmode
  | partitioned ps =>
    have hwell := hcursor.wellFormed
    rw [hu] at hwell
    exact ⟨ps, rfl, hwell⟩

/-- A table without includes and excludes that is opened tracks all groups that its database answers
exactly if their texts tell them apart. When identities are discovered in it, whatever was done to
it before, all groups whose least increment can be read are tracked afterwards exactly if their
texts tell them apart, from each other and from the cells that were tracked. -/
theorem groups_tracked
    (hopen : (files.run rows (Reader.open root source d schema idlePolicy)).1 = .ok (r, c))
    (hcolumn : r.selection.identity = some column) (hincludes : d.cursor.includes = [])
    (hexcludes : d.cursor.excludes = []) :
    (c.partitions.Tracks (groupsOf rows) ↔ (groupsOf rows).Functional) ∧
    (d.cursor.discover = true → ∀ u, Usage.Run r (Usage.opening c) u → ∀ found : List Sql.Row,
      (r.discovered found u.cursor).partitions.Tracks (readableGroupsOf r.kind found) ↔
        (readableGroupsOf r.kind found).Functional ∧
          ∀ g ∈ readableGroupsOf r.kind found, ∀ p ∈ u.cursor.partitions.slots,
            p.identity = g.1 → p.param = g.2) := by
  obtain ⟨hreader, s, hstarts, rfl⟩ := (Files.run_open_partitioned hcolumn rows).1 hopen
  obtain rfl := Opening.descriptor_of_readerOf hreader
  obtain ⟨hconfigured, -⟩ := Files.names_of_starts hstarts
  refine ⟨Opening.tracks_opened_iff hconfigured hincludes hexcludes, ?_⟩
  intro hdiscover u hrun found
  obtain ⟨ps, hps, hwell⟩ := hrun.partitions_wellFormed hopen hcolumn
  rw [Reader.discovered_eq hcolumn, if_pos hdiscover, hps]
  exact hwell.tracks_adopt_iff r.kind found

end

namespace Journal

/-- The journal with owners of any type. -/
def anySchema : Schema :=
  ⟨"journal", [⟨"id", "INTEGER", "INTEGER", .integer, false⟩, Sql.Column.ofDeclared "owner" ""]⟩

/-- The open table. -/
def anyReader : Reader :=
  ⟨descriptor, anySchema, { selection with identity := some (Sql.Column.ofDeclared "owner" "") },
    "db", .integer, ⟨0, 0⟩⟩

/-- The least entries of two owners, a number and its text. -/
def alike : List Sql.Row :=
  [minimumRow (.integer 1) (.integer 1), minimumRow (.text "1") (.integer 2)]

/-- They have one text. -/
lemma groupsOf_alike : groupsOf alike = [("1", .integer 1), ("1", .text "1")] ∧
    readableGroupsOf .integer alike = [("1", .integer 1), ("1", .text "1")] := by
  have hnumber : (Sql.Cell.integer 1).text? = some "1" := by decide +kernel
  have htext : (Sql.Cell.text "1").text? = some "1" := rfl
  have hminimum : ∀ owner id, (minimumRow owner id).get? Selection.minimumLabel = some id :=
    fun _ _ => rfl
  simp [groupsOf, readableGroupsOf, alike, Partition.ofMinimum?, identityOf?_minimumRow hnumber,
    identityOf?_minimumRow htext, hminimum, Mark.ofCell?]

/-- The journal as it is opened with these owners. -/
def alikeOpened : Cursor :=
  .partitioned (Opening.opened descriptor.cursor ⟨.integer, none, [], [], []⟩
    (Sql.Column.ofDeclared "owner" "") alike)

/-- The two owners share a partition, and still do after a discovery. -/
theorem groups_share_partition :
    ¬ alikeOpened.partitions.Tracks [("1", .integer 1), ("1", .text "1")] ∧
      ¬ (anyReader.discovered alike alikeOpened).partitions.Tracks
        [("1", .integer 1), ("1", .text "1")] := by
  have hopen : (Files.run alike (fun _ => none)
      (Reader.open "." source descriptor anySchema ⟨0, 0⟩)).1 = .ok (anyReader, alikeOpened) :=
    (Files.run_open_partitioned rfl alike).2 ⟨rfl, _, rfl, rfl⟩
  obtain ⟨hopened, hdiscovered⟩ := groups_tracked hopen rfl rfl rfl
  have hdiscovered := hdiscovered rfl (Usage.opening alikeOpened) .refl alike
  obtain ⟨hgroups, hreadable⟩ := groupsOf_alike
  rw [hgroups] at hopened
  rw [show anyReader.kind = .integer from rfl, hreadable] at hdiscovered
  have hnot : ¬ Named.Functional [("1", Sql.Cell.integer 1), ("1", .text "1")] := by
    intro hfunctional
    cases hfunctional ("1", .integer 1) (by simp) ("1", .text "1") (by simp) rfl
  exact ⟨fun htracks => hnot (hopened.1 htracks), fun htracks => hnot (hdiscovered.1 htracks).1⟩

end Journal

end TableTail
