import Mathlib.Data.Finset.Card
import TableTail.Proofs.Settings.Checked
import TableTail.Tail.Opening

/-!
# Labels of columns

The columns that are read appear in results under labels, and from then on a cell is known by its
label alone: the mark of a row is looked up by the increment column's label, of which the first cell
counts, and a record is keyed by all labels, of which the last cell counts. So different columns
need different labels (`Descriptor.Unambiguous`).

The checks of the settings see to this as long as the columns are listed. Where all columns of the
live schema are read, no check compares a rename's target with the columns that keep their own
names, and this is exactly what can go wrong (`labels_tell_columns_apart`).
-/

namespace TableTail

/-- A row's cell is looked up by the first column with the label. -/
lemma Sql.Row.get?_eq (row : Sql.Row) (label : String) :
    row.get? label = Named.get? label (row.labels.zip row.cells) := by
  obtain ⟨labels, cells⟩ := row
  induction labels generalizing cells with
  | nil => rfl
  | cons first rest ih =>
    cases cells with
    | nil =>
      simp [Sql.Row.get?]
    | cons cell cells =>
      have hrest := ih cells
      rw [List.zip_cons_cons, Named.get?]
      by_cases hfirst : label = first
      · subst hfirst
        simp [Sql.Row.get?, List.idxOf?_cons]
      · rw [if_neg hfirst, ← hrest]
        simp [Sql.Row.get?, List.idxOf?_cons, Ne.symm hfirst, Option.bind_map]

namespace Selection

variable {d : Descriptor} {s : Schema} {column : String}

/-- Columns are put behind a list unless they are in it. -/
lemma mem_foldl_addColumn {columns more : List String} :
    column ∈ more.foldl addColumn columns ↔ column ∈ columns ∨ column ∈ more := by
  induction more generalizing columns with
  | nil => simp
  | cons next rest ih =>
    have hadd : column ∈ addColumn columns next ↔ column ∈ columns ∨ column = next := by
      unfold addColumn
      split
      · next hin =>
        have hnext : next ∈ columns := by simpa using hin
        constructor
        · exact .inl
        · rintro (hold | rfl)
          · exact hold
          · exact hnext
      · simp
    rw [List.foldl_cons, ih, hadd, List.mem_cons, or_assoc]

/-- The columns of the cursor are read, and besides them those that are listed, or all. -/
lemma mem_projected :
    column ∈ projected d s ↔
      (column ∈ if d.columns.isEmpty then s.columns.map (·.name) else d.columns) ∨
        d.isCursorColumn column = true := by
  rw [projected, mem_foldl_addColumn]
  refine or_congr_right ?_
  simp only [List.mem_cons, Option.mem_toList, Descriptor.isCursorColumn, Bool.or_eq_true,
    decide_eq_true_eq]

/-- A selection reads the projected columns under their labels. -/
lemma items_of {dialect : Sql.Dialect} {table : String} {sel : Selection}
    (h : Selection.of d s dialect table = .ok sel) :
    sel.items = (projected d s).map (item d) ∧ s.column? d.cursor.increment = some sel.increment ∧
      sel.dialect = dialect := by
  unfold Selection.of at h
  cases hincrement : s.column? d.cursor.increment with
  | none => simp [hincrement] at h
  | some increment =>
    cases hidentity : d.cursor.identity with
    | none =>
      simp only [hincrement, hidentity, Except.ok.injEq] at h
      subst h
      exact ⟨rfl, rfl, rfl⟩
    | some name =>
      cases hname : s.column? name with
      | none => simp [hincrement, hidentity, hname] at h
      | some identity =>
        simp only [hincrement, hidentity, hname, Except.ok.injEq] at h
        subst h
        exact ⟨rfl, rfl, rfl⟩

end Selection

namespace Opening

/-- A reader has the table's description, and reads its columns under their labels. -/
lemma readerOf_items {source : Source} {d : Descriptor} {s : Schema} {policy : IdlePolicy}
    {r : Reader} (h : readerOf source d s policy = .ok r) :
    r.descriptor = d ∧
      r.selection.items = (Selection.projected d s).map (Selection.item d) := by
  unfold readerOf at h
  split at h
  · cases h
  · next selection hselection =>
    split at h
    · cases h
    · obtain rfl := Except.ok.inj h
      exact ⟨rfl, (Selection.items_of hselection).1⟩

end Opening

namespace Schema

variable {s : Schema} {name : String}

/-- A live column is found by its name. -/
lemma isSome_column?_iff : (s.column? name).isSome = true ↔ name ∈ s.columns.map (·.name) := by
  simp [column?, List.find?_isSome]

/-- The live column with a name has the name. -/
lemma name_of_column? {c : Sql.Column} (h : s.column? name = some c) : c.name = name := by
  simpa using List.find?_some h

end Schema

namespace Descriptor

variable {d : Descriptor} {s : Schema} {column target : String}

/-- Different columns that are read have different labels. -/
def Unambiguous (d : Descriptor) (s : Schema) : Prop :=
  ∀ a ∈ Selection.projected d s, ∀ b ∈ Selection.projected d s, d.labelOf a = d.labelOf b → a = b

/-- No column is renamed to the name of a live column that keeps its own name. -/
def SparesNames (d : Descriptor) (s : Schema) : Prop :=
  ∀ column target, Named.get? column d.renames = some target →
    (s.column? target).isSome = true → Named.has target d.renames = true

/-- The cells of a row by the columns that they were read from, without those that are NULL. -/
def cellsOf (d : Descriptor) (s : Schema) (row : Sql.Row) : Named Sql.Cell :=
  Named.ofPairs (((Selection.projected d s).zip row.cells).filter fun p => !p.2.isNull)

/-- A column has the target of its rename as its label, or else its own name. -/
lemma labelOf_cases (d : Descriptor) (column : String) :
    Named.get? column d.renames = some (d.labelOf column) ∨
      Named.get? column d.renames = none ∧ d.labelOf column = column := by
  unfold labelOf
  cases h : Named.get? column d.renames with
  | none => exact .inr ⟨rfl, rfl⟩
  | some target => exact .inl rfl

/-- A renamed column has its target as its label. -/
lemma labelOf_of_get? (h : Named.get? column d.renames = some target) :
    d.labelOf column = target := by
  rw [labelOf, h, Option.getD_some]

namespace Fitting

/-- A renamed column is read. -/
lemma mem_projected (h : d.Fitting s) (hrename : Named.get? column d.renames = some target) :
    column ∈ Selection.projected d s := by
  have hnames : column ∈ Named.names d.renames :=
    List.mem_map.2 ⟨_, Named.mem_of_get? hrename, rfl⟩
  have hlive : (s.column? column).isSome = true :=
    h.mentioned column (List.mem_append_left _ (List.mem_append_right _ hnames))
  rw [Selection.mem_projected]
  rcases h.read column (List.mem_append_left _ hnames) with hcursor | haccessible
  · exact .inr hcursor
  · left
    split
    · exact Schema.isSome_column?_iff.1 hlive
    · next hlisted => simpa [isAccessible, hlisted] using haccessible

/-- A column that is read is live, if all columns are. -/
lemma isSome_column? (h : d.Fitting s) (hall : d.columns = [])
    (hcolumn : column ∈ Selection.projected d s) : (s.column? column).isSome = true := by
  rw [Selection.mem_projected, hall] at hcolumn
  rcases hcolumn with hlive | hcursor
  · exact Schema.isSome_column?_iff.2 hlive
  · simp only [isCursorColumn, Bool.or_eq_true, decide_eq_true_eq] at hcursor
    rcases hcursor with rfl | hidentity
    · exact h.increment
    · exact h.identity column hidentity

end Fitting

variable {t : TableSettings}

/-- Two renamed columns have different targets. -/
lemma eq_of_targets (hnodup : (Named.values d.renames).Nodup) {a b : String}
    (ha : Named.get? a d.renames = some target) (hb : Named.get? b d.renames = some target) :
    a = b := by
  have hmem : ∀ {c}, Named.get? c d.renames = some target → (c, target) ∈ d.renames :=
    Named.mem_of_get?
  have hpairs := List.inj_on_of_nodup_map hnodup (hmem ha) (hmem hb) rfl
  exact congrArg Prod.fst hpairs

/-- The checked settings of a table spare the names of the columns that they list. -/
lemma not_mem_projected_of_target (hd : ofSettings t = .ok d) (hlisted : d.columns ≠ [])
    (hrename : Named.get? column d.renames = some target)
    (hkept : Named.get? target d.renames = none) : target ∉ Selection.projected d s := by
  obtain ⟨hchecked, hcolumns, hrenames, -, hcursor⟩ := eq_of_ofSettings hd
  intro hmem
  have htarget : target ∈ Named.values t.rename :=
    hrenames ▸ List.mem_map.2 ⟨_, Named.mem_of_get? hrename, rfl⟩
  have hfree := hchecked.free target htarget
  have hown : Named.has target t.rename = false := by rw [← hrenames, Named.has, hkept]; rfl
  rw [TableSettings.collides, hown, ← hcolumns, TableSettings.cursorColumns, ← hcursor] at hfree
  rw [Selection.mem_projected, if_neg (by simpa using hlisted)] at hmem
  rcases hmem with hcolumn | hcursorColumn
  · simp [hcolumn] at hfree
  · simp only [isCursorColumn, Bool.or_eq_true, decide_eq_true_eq] at hcursorColumn
    rcases hcursorColumn with rfl | hidentity
    · simp at hfree
    · simp [hidentity] at hfree

/-- Labels are unambiguous exactly if columns are listed, or all renames spare the names of the
columns that keep theirs. -/
theorem unambiguous_iff (hd : ofSettings t = .ok d) (hs : d.misfit? s = none) :
    d.Unambiguous s ↔ (d.columns = [] → d.SparesNames s) := by
  obtain ⟨hchecked, -, hrenames, -, -⟩ := eq_of_ofSettings hd
  have hfitting := fitting_of_misfit? hs
  constructor
  · intro hlabels hall column target hrename hlive
    by_contra hkept
    have hnone : Named.get? target d.renames = none := by simpa [Named.has] using hkept
    have hcolumn := hfitting.mem_projected hrename
    have htarget : target ∈ Selection.projected d s := by
      rw [Selection.mem_projected, if_pos (by rw [hall]; rfl)]
      exact .inl (Schema.isSome_column?_iff.1 hlive)
    have hsame : d.labelOf column = d.labelOf target := by
      rw [labelOf_of_get? hrename, labelOf, hnone, Option.getD_none]
    obtain rfl := hlabels column hcolumn target htarget hsame
    rw [hnone] at hrename
    cases hrename
  · intro hspares
    -- a renamed column is compared with one that keeps its own name
    have hmixed : ∀ a b, b ∈ Selection.projected d s → Named.get? a d.renames = some b →
        Named.get? b d.renames = none → False := by
      intro a b hb hrename hkept
      by_cases hall : d.columns = []
      · have hlive := hfitting.isSome_column? hall hb
        have hrenamed := hspares hall a b hrename hlive
        rw [Named.has, hkept] at hrenamed
        cases hrenamed
      · exact not_mem_projected_of_target hd hall hrename hkept hb
    intro a ha b hb hsame
    rcases d.labelOf_cases a with harenamed | ⟨hakept, halabel⟩
    · rcases d.labelOf_cases b with hbrenamed | ⟨hbkept, hblabel⟩
      · exact eq_of_targets (hrenames ▸ hchecked.targets) harenamed (hsame ▸ hbrenamed)
      · rw [hsame, hblabel] at harenamed
        exact (hmixed a b hb harenamed hbkept).elim
    · rcases d.labelOf_cases b with hbrenamed | ⟨hbkept, hblabel⟩
      · rw [← hsame, halabel] at hbrenamed
        exact (hmixed b a ha hbrenamed hakept).elim
      · rw [← halabel, hsame, hblabel]

section Rows

variable {row : Sql.Row}

/-- The cells of a row under the labels of their columns. -/
lemma zip_labels (h : row.labels = (Selection.projected d s).map d.labelOf) :
    row.labels.zip row.cells =
      ((Selection.projected d s).zip row.cells).map fun p => (d.labelOf p.1, p.2) := by
  rw [h, List.zip_map_left]
  rfl

/-- The columns of a row's cells are read. -/
lemma mem_projected_of_mem_names (h : column ∈ Named.names (d.cellsOf s row)) :
    column ∈ Selection.projected d s := by
  rw [cellsOf, Named.mem_names_ofPairs] at h
  obtain ⟨p, hp, rfl⟩ := List.mem_map.1 h
  exact (List.of_mem_zip (List.mem_of_mem_filter hp)).1

/-- A record has entries for the labels of the columns whose cells are not NULL. -/
lemma mem_names_toFields (h : row.labels = (Selection.projected d s).map d.labelOf)
    {label : String} :
    label ∈ Named.names row.toFields ↔
      ∃ column ∈ Named.names (d.cellsOf s row), d.labelOf column = label := by
  rw [Sql.Row.toFields, zip_labels h, cellsOf]
  simp only [Named.mem_names_ofPairs, List.filter_map, List.map_map, List.mem_map,
    Function.comp_def]
  constructor
  · rintro ⟨p, hp, hlabel⟩
    exact ⟨p.1, ⟨p, hp, rfl⟩, hlabel⟩
  · rintro ⟨_, ⟨p, hp, rfl⟩, hlabel⟩
    exact ⟨p, hp, hlabel⟩

/-- A record has as many entries as there are labels of cells that are not NULL. -/
lemma length_toFields (h : row.labels = (Selection.projected d s).map d.labelOf) :
    row.toFields.length = ((Named.names (d.cellsOf s row)).toFinset.image d.labelOf).card := by
  have hnodup : (Named.names row.toFields).Nodup := (Named.sorted_ofPairs _).nodup
  have hlength : row.toFields.length = (Named.names row.toFields).length := by
    rw [Named.names, List.length_map]
  rw [hlength, ← List.toFinset_card_of_nodup hnodup]
  congr 1
  ext label
  rw [List.mem_toFinset, mem_names_toFields h, Finset.mem_image]
  simp only [List.mem_toFinset]

/-- The columns whose cells are not NULL are counted once each. -/
lemma length_cellsOf : (d.cellsOf s row).length = (Named.names (d.cellsOf s row)).toFinset.card := by
  have hnodup : (Named.names (d.cellsOf s row)).Nodup := (Named.sorted_ofPairs _).nodup
  rw [List.toFinset_card_of_nodup hnodup, Named.names, List.length_map]

/-- A row in which no cell is NULL. -/
def fullRow (d : Descriptor) (s : Schema) : Sql.Row :=
  ⟨(Selection.projected d s).map d.labelOf,
    (Selection.projected d s).map fun _ => .bool true⟩

/-- All columns that are read have cells in it. -/
lemma mem_names_fullRow :
    column ∈ Named.names (d.cellsOf s (d.fullRow s)) ↔ column ∈ Selection.projected d s := by
  have hzip : (Selection.projected d s).zip (d.fullRow s).cells =
      (Selection.projected d s).map fun c => (c, Sql.Cell.bool true) :=
    List.map_prod_left_eq_zip.symm
  rw [cellsOf, hzip, Named.mem_names_ofPairs]
  simp [Sql.Cell.isNull]

/-- Labels are unambiguous exactly if no record has fewer entries than cells that are not NULL. -/
lemma unambiguous_iff_length :
    d.Unambiguous s ↔ ∀ row : Sql.Row, row.labels = (Selection.projected d s).map d.labelOf →
      row.toFields.length = (d.cellsOf s row).length := by
  constructor
  · intro hlabels row hrow
    rw [length_toFields hrow, length_cellsOf, Finset.card_image_iff]
    intro a ha b hb hsame
    have hread : ∀ c, c ∈ (Named.names (d.cellsOf s row)).toFinset →
        c ∈ Selection.projected d s :=
      fun c hc => mem_projected_of_mem_names (List.mem_toFinset.1 hc)
    exact hlabels a (hread a ha) b (hread b hb) hsame
  · intro hlength a ha b hb hsame
    have hfull := hlength (d.fullRow s) rfl
    rw [length_toFields rfl, length_cellsOf, Finset.card_image_iff] at hfull
    have hnames : ∀ c ∈ Selection.projected d s,
        c ∈ (Named.names (d.cellsOf s (d.fullRow s))).toFinset :=
      fun c hc => List.mem_toFinset.2 (mem_names_fullRow.2 hc)
    exact hfull (hnames a ha) (hnames b hb) hsame

end Rows

namespace Unambiguous

variable {row : Sql.Row}

/-- Labelled cells are looked up as the cells of their columns. -/
lemma get?_labelled (h : d.Unambiguous s) {α : Type} {cells : Named α}
    (hcells : ∀ p ∈ cells, p.1 ∈ Selection.projected d s)
    (hcolumn : column ∈ Selection.projected d s) :
    Named.get? (d.labelOf column) (cells.map fun p => (d.labelOf p.1, p.2)) =
      Named.get? column cells := by
  apply Named.get?_map_names
  intro p hp hsame
  exact h column hcolumn p.1 (hcells p hp) hsame

/-- A label leads to the first cell of its column. -/
lemma get?_row (h : d.Unambiguous s)
    (hrow : row.labels = (Selection.projected d s).map d.labelOf)
    (hcolumn : column ∈ Selection.projected d s) :
    row.get? (d.labelOf column) =
      Named.get? column ((Selection.projected d s).zip row.cells) := by
  rw [Sql.Row.get?_eq, zip_labels hrow]
  exact h.get?_labelled (fun p hp => (List.of_mem_zip hp).1) hcolumn

/-- A record has a column's cell under the column's label. -/
lemma get?_toFields (h : d.Unambiguous s)
    (hrow : row.labels = (Selection.projected d s).map d.labelOf)
    (hcolumn : column ∈ Selection.projected d s) :
    Named.get? (d.labelOf column) row.toFields =
      (Named.get? column (d.cellsOf s row)).map Sql.Cell.toJson := by
  have hcells : ∀ p ∈ (((Selection.projected d s).zip row.cells).filter
      fun p => !p.2.isNull).reverse, p.1 ∈ Selection.projected d s := by
    intro p hp
    exact (List.of_mem_zip (List.mem_of_mem_filter (List.mem_reverse.1 hp))).1
  rw [Sql.Row.toFields, zip_labels hrow, cellsOf, Named.get?_ofPairs, Named.get?_ofPairs,
    ← h.get?_labelled hcells hcolumn, ← Named.get?_map_values]
  simp only [List.filter_map, List.map_map, List.map_reverse, Function.comp_def]

end Unambiguous

/-- The labels of an accepted table are unambiguous exactly if its columns are listed, or all
renames spare the names of the columns that keep theirs. Then a row's mark is read from the
increment column's own cell, and its record has one entry for each cell that is not NULL; with
ambiguous labels some record has fewer. -/
theorem labels_tell_columns_apart (ht : ofSettings t = .ok d) (hs : d.misfit? s = none) :
    (d.Unambiguous s ↔ (d.columns = [] → d.SparesNames s)) ∧
    (d.Unambiguous s ↔ ∀ row : Sql.Row, row.labels = (Selection.projected d s).map d.labelOf →
      row.toFields.length = (d.cellsOf s row).length) ∧
    (d.Unambiguous s → ∀ source policy r, Opening.readerOf source d s policy = .ok r →
      ∀ row : Sql.Row, row.labels = r.selection.items.map (·.label) →
        r.markOf? row = (Named.get? d.cursor.increment
          ((Selection.projected d s).zip row.cells)).bind (Mark.ofCell? r.kind) ∧
        ∀ column ∈ Selection.projected d s, Named.get? (d.labelOf column) row.toFields =
          (Named.get? column (d.cellsOf s row)).map Sql.Cell.toJson) := by
  refine ⟨unambiguous_iff ht hs, unambiguous_iff_length, ?_⟩
  intro hlabels source policy r hreader row hrow
  obtain ⟨hdescriptor, hitems⟩ := Opening.readerOf_items hreader
  have hrow : row.labels = (Selection.projected d s).map d.labelOf := by
    rw [hrow, hitems, List.map_map]
    rfl
  have hincrement : d.cursor.increment ∈ Selection.projected d s :=
    Selection.mem_projected.2 (.inr (by simp [isCursorColumn]))
  constructor
  · rw [Reader.markOf?, Reader.incrementLabel, hdescriptor, hlabels.get?_row hrow hincrement]
  · intro column hcolumn
    exact hlabels.get?_toFields hrow hcolumn

end Descriptor

namespace Journal

/-- The journal with ranks, read by numbers that are called ranks too. -/
def rankedSettings : TableSettings :=
  ⟨"journal", none, [], [("id", "rank")], [], none, none, none,
    ⟨"id", none, none, [], [], [], true⟩⟩

/-- Its description. -/
def rankedDescriptor : Descriptor :=
  ⟨"journal", "journal", [], [("id", "rank")], [], none, rankedSettings.cursor⟩

/-- Its columns, the ranks first. -/
def rankedSchema : Schema :=
  ⟨"journal",
    [⟨"rank", "INTEGER", "INTEGER", .integer, false⟩, ⟨"id", "INTEGER", "INTEGER", .integer, false⟩]⟩

/-- An entry as it is read. -/
def rankedEntry : Sql.Row := ⟨["rank", "rank"], [.integer 50, .integer 2]⟩

/-- Both columns have one label: the record of an entry has one field, and its rank is taken for
its number. -/
theorem ranks_taken_for_numbers :
    ¬ rankedDescriptor.Unambiguous rankedSchema ∧
      (∃ row : Sql.Row,
        row.labels = (Selection.projected rankedDescriptor rankedSchema).map
          rankedDescriptor.labelOf ∧
        row.toFields.length ≠ (rankedDescriptor.cellsOf rankedSchema row).length) ∧
      ∃ r, Opening.readerOf ⟨.sqlite, "db", "main"⟩ rankedDescriptor rankedSchema ⟨0, 0⟩ = .ok r ∧
        rankedEntry.labels = r.selection.items.map (·.label) ∧
        r.markOf? rankedEntry = some (.integer 50) := by
  have haccepted : Descriptor.ofSettings rankedSettings = .ok rankedDescriptor := by decide +kernel
  have hfits : rankedDescriptor.misfit? rankedSchema = none := by decide +kernel
  obtain ⟨hspares, hlength, -⟩ := Descriptor.labels_tell_columns_apart haccepted hfits
  have hnot : ¬ rankedDescriptor.Unambiguous rankedSchema := by
    intro hlabels
    have hrenamed := hspares.1 hlabels rfl "id" "rank" (by decide) (by decide)
    revert hrenamed
    decide
  refine ⟨hnot, ?_, _, rfl, rfl, rfl⟩
  simpa using mt hlength.2 hnot

end Journal

end TableTail
