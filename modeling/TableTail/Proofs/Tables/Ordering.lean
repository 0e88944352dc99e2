import TableTail.Proofs.Lists
import TableTail.Proofs.Stored.Order
import TableTail.Proofs.Tables.Labels
import TableTail.Stored.Database

/-!
# What a scan is ordered by

A scan is ordered by the name of its increment column, and in an ordering a bare name that is the
label of an output column denotes this output column (`Sql.Dialect.Denotes`). So the rows ascend by
the increments only while no other column has the increment column's name as its label
(`Descriptor.Shadowed`). Checked settings may contain such a label: the check of a rename's target
passes over the names of columns that are renamed themselves, and it minds the case of letters,
which SQLite does not.
-/

namespace TableTail

namespace Sql

/-- Whether a label is a name; SQLite does not tell the cases of ASCII letters apart. -/
def Dialect.sameName : Dialect → String → String → Bool
  | .postgres, a, b => a = b
  | .sqlite, a, b => StoredTable.foldName a = StoredTable.foldName b

/-- The entries of a list that a name leads to: of several ones SQLite takes the first, PostgreSQL
needs all of them to be the same. -/
def Dialect.bearers {α : Type} (dialect : Dialect) (label : α → String) (name : String)
    (l : List α) : List α :=
  match dialect with
  | .postgres => l.filter fun a => dialect.sameName (label a) name
  | .sqlite => (l.find? fun a => dialect.sameName (label a) name).toList

/-- What the key of an ordering denotes: a bare name the output column with this label, or else the
table's own column; any other expression itself. -/
def Dialect.Denotes (dialect : Dialect) (items : List Item) (key term : Term) : Prop :=
  match key with
  | .column name =>
    (dialect.bearers Item.label name items = [] ∧ term = key) ∨
      ∃ item ∈ dialect.bearers Item.label name items, item.value = term
  | _ => term = key

/-- The rows that a statement selects are ordered by an expression. -/
def Select.OrderedBy (dialect : Dialect) (select : Select) (term : Term) : Prop :=
  ∃ key limit, select.arrangement = .ordered key limit ∧ dialect.Denotes select.items key term

/-- Entries that are made of others are found by these. -/
lemma Dialect.bearers_map {α β : Type} (dialect : Dialect) (label : β → String) (f : α → β)
    (name : String) (l : List α) :
    dialect.bearers label name (l.map f) = (dialect.bearers (label ∘ f) name l).map f := by
  cases dialect with
  | postgres => simp [bearers, List.filter_map, Function.comp_def]
  | sqlite =>
    simp only [bearers, List.find?_map, Function.comp_def]
    cases l.find? fun a => sqlite.sameName (label (f a)) name <;> rfl

/-- An entry that a name leads to is in the list, and its label is the name. -/
lemma Dialect.mem_of_mem_bearers {α : Type} {dialect : Dialect} {label : α → String}
    {name : String} {l : List α} {a : α} (h : a ∈ dialect.bearers label name l) :
    a ∈ l ∧ dialect.sameName (label a) name = true := by
  cases dialect with
  | postgres => exact List.mem_filter.1 h
  | sqlite =>
    have hfound := Option.mem_toList.1 h
    have hsame := List.find?_some (p := fun a => sqlite.sameName (label a) name) hfound
    exact ⟨List.mem_of_find?_eq_some hfound, hsame⟩

/-- The key of an ordering denotes something. -/
lemma Dialect.exists_denotes (dialect : Dialect) (items : List Item) (key : Term) :
    ∃ term, dialect.Denotes items key term := by
  unfold Denotes
  split
  · next name =>
    cases hbearers : dialect.bearers Item.label name items with
    | nil => exact ⟨_, .inl ⟨rfl, rfl⟩⟩
    | cons item rest => exact ⟨item.value, .inr ⟨item, List.mem_cons_self .., rfl⟩⟩
  · exact ⟨_, rfl⟩

/-- The expression that a cursor is compared by is its column's bare name, or not a name at all. -/
lemma Dialect.cursorTerm_cases (dialect : Dialect) (column : Column) :
    dialect.cursorTerm column = .column column.name ∨
      ∀ name, dialect.cursorTerm column ≠ .column name := by
  cases dialect with
  | postgres => exact .inl rfl
  | sqlite =>
    rw [cursorTerm]
    split
    · right
      intro name hname
      cases hname
    · exact .inl rfl

end Sql

namespace Selecting

variable {t : StoredTable} {q : Sql.Query}

/-- A row of a table, with the cells that a query binds. -/
def scopeOf (t : StoredTable) (q : Sql.Query) (row : List Stored) : Scope :=
  ⟨q.parameters.map Stored.ofCell, t.columns, row⟩

/-- Rows are ordered by the value of what the key denotes. -/
lemma orderValue_eq {items : List Sql.Item} {key term : Sql.Term}
    (h : Sql.Dialect.sqlite.Denotes items key term) (s : Scope) :
    orderValue s items key = value s term := by
  cases key with
  | column name =>
    simp only [Sql.Dialect.Denotes, Sql.Dialect.bearers, Sql.Dialect.sameName] at h
    rw [orderValue]
    cases hfind : items.find? fun i =>
        decide (StoredTable.foldName i.label = StoredTable.foldName name) with
    | none =>
      rw [hfind] at h
      obtain ⟨-, rfl⟩ | ⟨item, hitem, -⟩ := h
      · rfl
      · cases hitem
    | some item =>
      rw [hfind] at h
      obtain ⟨hnil, -⟩ | ⟨item', hitem, rfl⟩ := h
      · cases hnil
      · obtain rfl := List.mem_singleton.1 hitem
        rfl
  | _ =>
    obtain rfl := h
    rfl

/-- The rows of a table that meet the conditions are rows of the table. -/
lemma mem_of_kept {α : Type} {f : α → Option Bool} {l : List α} {kept : List (List α)}
    (h : l.mapM (fun a => (f a).map fun met => if met then [a] else []) = some kept) {a : α}
    (ha : a ∈ kept.flatten) : a ∈ l := by
  obtain ⟨part, hpart, hin⟩ := List.mem_flatten.1 ha
  obtain ⟨b, hb, hmade⟩ := exists_of_mapM h hpart
  obtain ⟨met, -, rfl⟩ := Option.map_eq_some_iff.1 hmade
  cases met with
  | false => cases hin
  | true =>
    obtain rfl := List.mem_singleton.1 hin
    exact hb

/-- Of a list in order no entry is behind the last one. -/
lemma rel_getLast? {α : Type} {R : α → α → Prop} (hrefl : ∀ a, R a a) {l : List α}
    (h : l.Pairwise R) {last : α} (hlast : last ∈ l.getLast?) : ∀ a ∈ l, R a last := by
  obtain ⟨before, rfl⟩ := List.getLast?_eq_some_iff.1 hlast
  intro a ha
  rcases List.mem_append.1 ha with hbefore | hself
  · exact (List.pairwise_append.1 h).2.2 a hbefore last (List.mem_singleton_self last)
  · obtain rfl := List.mem_singleton.1 hself
    exact hrefl a

/-- The rows that a query answers are rows of the table; of them the last one has the largest value
of what the ordering denotes. -/
theorem rows_ordered {found : List (List Stored)} {term : Sql.Term} (h : rows t q = some found)
    (hterm : q.select.OrderedBy .sqlite term) :
    ∃ kept : List (List Stored), (∀ row ∈ kept, row ∈ t.rows) ∧
      kept.mapM (fun row => project (scopeOf t q row) q.select.items) = some found ∧
      ∀ last ∈ kept.getLast?, ∀ row ∈ kept, ∃ x y, value (scopeOf t q row) term = some x ∧
        value (scopeOf t q last) term = some y ∧ x.NotAbove y := by
  obtain ⟨key, limit, harrangement, hdenotes⟩ := hterm
  rw [rows, Option.bind_eq_bind, Option.bind_eq_some_iff] at h
  obtain ⟨parts, hparts, harrange⟩ := h
  rw [arrange, harrangement] at harrange
  obtain ⟨keyed, hkeyed, hproject⟩ := Option.bind_eq_some_iff.1 harrange
  -- a keyed row is a row of the table with its value of the term
  have hentry : ∀ p ∈ keyed, ∃ row ∈ t.rows, p.2 = scopeOf t q row ∧ value p.2 term = some p.1 := by
    intro p hp
    obtain ⟨s, hs, hvalue⟩ := exists_of_mapM hkeyed hp
    obtain ⟨v, hv, rfl⟩ := Option.map_eq_some_iff.1 hvalue
    obtain ⟨row, hrow, rfl⟩ := List.mem_map.1 (mem_of_kept hparts hs)
    rw [orderValue_eq hdenotes] at hv
    exact ⟨row, hrow, rfl, hv⟩
  have hsorted : ((sortByKey keyed).take limit).Pairwise fun a b => a.1.NotAbove b.1 :=
    (Stored.pairwise_mergeSort keyed).sublist (List.take_sublist _ _)
  have hmem : ∀ p ∈ (sortByKey keyed).take limit,
      ∃ row ∈ t.rows, p.2 = scopeOf t q row ∧ value p.2 term = some p.1 :=
    fun p hp => hentry p (List.mem_mergeSort.1 (List.mem_of_mem_take hp))
  have hscope : ∀ p ∈ (sortByKey keyed).take limit, scopeOf t q p.2.row = p.2 := by
    intro p hp
    obtain ⟨row, -, heq, -⟩ := hmem p hp
    rw [heq]
    rfl
  refine ⟨((sortByKey keyed).take limit).map (·.2.row), ?_, ?_, ?_⟩
  · intro row hrow
    obtain ⟨p, hp, rfl⟩ := List.mem_map.1 hrow
    obtain ⟨row, hin, heq, -⟩ := hmem p hp
    rw [heq]
    exact hin
  · rw [mapM_eq_some_iff, ← mapM_eq_some_iff.1 hproject, List.map_map]
    refine List.map_congr_left fun p hp => ?_
    simp only [Function.comp_apply, hscope p hp]
  · intro last hlast row hrow
    rw [List.getLast?_map] at hlast
    obtain ⟨b, hb, rfl⟩ := Option.map_eq_some_iff.1 hlast
    obtain ⟨a, ha, rfl⟩ := List.mem_map.1 hrow
    have hb' := List.mem_of_getLast? hb
    obtain ⟨-, -, -, hx⟩ := hmem a ha
    obtain ⟨-, -, -, hy⟩ := hmem b hb'
    refine ⟨a.1, b.1, by rwa [hscope a ha], by rwa [hscope b hb'], ?_⟩
    exact rel_getLast? (fun p => Stored.notAbove_refl p.1) hsorted hb a ha

end Selecting

namespace Selection

/-- The queries that read rows: those past a mark, and those of an identity. -/
def IsScan (sel : Selection) (q : Sql.Query) : Prop :=
  (∃ after limit, q = sel.singleScan after limit) ∨
    ∃ identity after unread limit, q = sel.partitionScan identity after unread limit

/-- They select the columns that are read, ordered by the increment column. -/
lemma IsScan.arranged {sel : Selection} {q : Sql.Query} (h : sel.IsScan q) :
    q.select.items = sel.items ∧
      ∃ limit, q.select.arrangement = .ordered (sel.dialect.cursorTerm sel.increment) limit := by
  rcases h with ⟨after, limit, rfl⟩ | ⟨identity, after, unread, limit, rfl⟩
  · exact ⟨rfl, limit, rfl⟩
  · exact ⟨rfl, limit, rfl⟩

end Selection

namespace Descriptor

variable {t : TableSettings} {d : Descriptor} {s : Schema} {dialect : Sql.Dialect}
  {table : String} {sel : Selection} {q : Sql.Query} {column : String}

/-- Another column than the increment column is found by the increment column's name. -/
def Shadowed (d : Descriptor) (s : Schema) (dialect : Sql.Dialect) : Prop :=
  ∃ column ∈ dialect.bearers d.labelOf d.cursor.increment (Selection.projected d s),
    column ≠ d.cursor.increment

/-- Of the columns that are read the increment column alone is read by its name. -/
lemma value_item_iff (ht : ofSettings t = .ok d) :
    (Selection.item d column).value = .column d.cursor.increment ↔
      column = d.cursor.increment := by
  obtain ⟨hchecked, -, -, hconverts, hcursor⟩ := eq_of_ofSettings ht
  have hplain : d.convertOf d.cursor.increment = none := by
    have hfree := hchecked.unconverted t.cursor.increment (List.mem_cons_self ..)
    simpa [convertOf, hconverts, hcursor, Named.has] using hfree
  constructor
  · intro hvalue
    unfold Selection.item at hvalue
    split at hvalue
    · cases hvalue
    · exact Sql.Term.column.inj hvalue
  · rintro rfl
    rw [Selection.item, hplain]

/-- The expressions that a scan may be ordered by. -/
lemma orderedBy_iff (hsel : Selection.of d s dialect table = .ok sel) (hq : sel.IsScan q)
    {term : Sql.Term} :
    q.select.OrderedBy dialect term ↔
      dialect.Denotes ((Selection.projected d s).map (Selection.item d))
        (dialect.cursorTerm sel.increment) term := by
  obtain ⟨hitems, -, hdialect⟩ := Selection.items_of hsel
  obtain ⟨hselected, limit, harrangement⟩ := hq.arranged
  rw [hdialect] at harrangement
  constructor
  · rintro ⟨key, limit', hkey, hdenotes⟩
    obtain ⟨rfl, rfl⟩ := Sql.Arrangement.ordered.inj (harrangement.symm.trans hkey)
    rwa [hselected, hitems] at hdenotes
  · intro hdenotes
    refine ⟨_, limit, harrangement, ?_⟩
    rwa [hselected, hitems]

/-- A scan is ordered by its increments exactly if no other column has the increment column's name,
or the increments are compared by more than this name. -/
lemma orderedBy_increment_iff (ht : ofSettings t = .ok d)
    (hsel : Selection.of d s dialect table = .ok sel) (hq : sel.IsScan q) :
    (∀ term, q.select.OrderedBy dialect term ↔ term = dialect.cursorTerm sel.increment) ↔
      (dialect.cursorTerm sel.increment = .column sel.increment.name → ¬ d.Shadowed s dialect) := by
  obtain ⟨-, hincrement, -⟩ := Selection.items_of hsel
  have hname : sel.increment.name = d.cursor.increment := Schema.name_of_column? hincrement
  have hbearers := dialect.bearers_map Sql.Item.label (Selection.item d) sel.increment.name
    (Selection.projected d s)
  rw [hname] at hbearers ⊢
  simp only [orderedBy_iff hsel hq]
  constructor
  · rintro hordered hbare ⟨column, hcolumn, hother⟩
    have hdenotes : dialect.Denotes ((Selection.projected d s).map (Selection.item d))
        (dialect.cursorTerm sel.increment) (Selection.item d column).value := by
      rw [hbare, Sql.Dialect.Denotes, hbearers]
      exact .inr ⟨_, List.mem_map_of_mem hcolumn, rfl⟩
    exact hother ((value_item_iff ht).1 (((hordered _).1 hdenotes).trans hbare))
  · intro hfree
    have honly : ∀ term, dialect.Denotes ((Selection.projected d s).map (Selection.item d))
        (dialect.cursorTerm sel.increment) term → term = dialect.cursorTerm sel.increment := by
      intro term hdenotes
      rcases dialect.cursorTerm_cases sel.increment with hbare | hterm
      · rw [hname] at hbare
        rw [hbare, Sql.Dialect.Denotes, hbearers] at hdenotes
        rw [hbare]
        obtain ⟨-, rfl⟩ | ⟨item, hitem, rfl⟩ := hdenotes
        · rfl
        · obtain ⟨column, hcolumn, rfl⟩ := List.mem_map.1 hitem
          apply (value_item_iff ht).2
          by_contra hother
          exact hfree hbare ⟨column, hcolumn, hother⟩
      · unfold Sql.Dialect.Denotes at hdenotes
        split at hdenotes
        · next name hkey => exact absurd hkey (hterm name)
        · exact hdenotes
    intro term
    constructor
    · exact honly term
    · rintro rfl
      obtain ⟨denoted, hdenoted⟩ := dialect.exists_denotes
        ((Selection.projected d s).map (Selection.item d)) (dialect.cursorTerm sel.increment)
      rwa [honly denoted hdenoted] at hdenoted

/-- To PostgreSQL another column has the increment column's name exactly if it is renamed to it. -/
lemma shadowed_postgres_iff (hs : d.misfit? s = none) :
    d.Shadowed s .postgres ↔ ∃ column, column ≠ d.cursor.increment ∧
      Named.get? column d.renames = some d.cursor.increment := by
  constructor
  · rintro ⟨column, hcolumn, hother⟩
    obtain ⟨-, hsame⟩ := Sql.Dialect.mem_of_mem_bearers hcolumn
    have hlabel : d.labelOf column = d.cursor.increment := by
      simpa [Sql.Dialect.sameName] using hsame
    rcases d.labelOf_cases column with hrenamed | ⟨-, hown⟩
    · exact ⟨column, hother, hlabel ▸ hrenamed⟩
    · exact absurd (hown.symm.trans hlabel) hother
  · rintro ⟨column, hother, hrenamed⟩
    have hread := (fitting_of_misfit? hs).mem_projected hrenamed
    refine ⟨column, List.mem_filter.2 ⟨hread, ?_⟩, hother⟩
    simp [Sql.Dialect.sameName, labelOf_of_get? hrenamed]

/-- To SQLite another column has the increment column's name exactly if it is the first one to have
it, whatever the case of its letters. -/
lemma shadowed_sqlite_iff :
    d.Shadowed s .sqlite ↔ ∃ before column after,
      Selection.projected d s = before ++ column :: after ∧ column ≠ d.cursor.increment ∧
        StoredTable.foldName (d.labelOf column) = StoredTable.foldName d.cursor.increment ∧
        ∀ c ∈ before,
          StoredTable.foldName (d.labelOf c) ≠ StoredTable.foldName d.cursor.increment := by
  simp only [Shadowed, Sql.Dialect.bearers, Option.mem_toList, Sql.Dialect.sameName,
    List.find?_eq_some_iff_append, decide_eq_true_eq]
  constructor
  · rintro ⟨column, ⟨hsame, before, after, hsplit, hbefore⟩, hother⟩
    exact ⟨before, column, after, hsplit, hother, hsame, by simpa using hbefore⟩
  · rintro ⟨before, column, after, hsplit, hother, hsame, hbefore⟩
    exact ⟨column, ⟨hsame, before, after, hsplit, by simpa using hbefore⟩, hother⟩

/-- A scan of an accepted table is ordered by the increment column exactly if no other column is
found by the increment column's name: to PostgreSQL one that is renamed to it, to SQLite the first
one with this label, unless the increments are compared as instants. Then the last one of the rows
that a stored table answers has the largest increment. -/
theorem scans_ordered_by_increment (ht : ofSettings t = .ok d) (hs : d.misfit? s = none)
    (hsel : Selection.of d s dialect table = .ok sel) (hq : sel.IsScan q) :
    ((∀ term, q.select.OrderedBy dialect term ↔ term = dialect.cursorTerm sel.increment) ↔
      match dialect with
      | .postgres => ¬ ∃ column, column ≠ d.cursor.increment ∧
          Named.get? column d.renames = some d.cursor.increment
      | .sqlite => sel.increment.kind = .dateTime ∨
          ¬ ∃ before column after,
            Selection.projected d s = before ++ column :: after ∧ column ≠ d.cursor.increment ∧
              StoredTable.foldName (d.labelOf column) =
                StoredTable.foldName d.cursor.increment ∧
              ∀ c ∈ before, StoredTable.foldName (d.labelOf c) ≠
                StoredTable.foldName d.cursor.increment) ∧
    (dialect = .sqlite →
      (∀ term, q.select.OrderedBy dialect term ↔ term = dialect.cursorTerm sel.increment) →
      ∀ stored found, Selecting.rows stored q = some found →
        ∃ kept : List (List Stored), (∀ row ∈ kept, row ∈ stored.rows) ∧
          kept.mapM (fun row =>
            Selecting.project (Selecting.scopeOf stored q row) q.select.items) = some found ∧
          ∀ last ∈ kept.getLast?, ∀ row ∈ kept, ∃ x y,
            Selecting.value (Selecting.scopeOf stored q row)
              (dialect.cursorTerm sel.increment) = some x ∧
            Selecting.value (Selecting.scopeOf stored q last)
              (dialect.cursorTerm sel.increment) = some y ∧
            x.NotAbove y) := by
  constructor
  · rw [orderedBy_increment_iff ht hsel hq]
    cases dialect with
    | postgres =>
      rw [shadowed_postgres_iff hs]
      constructor
      · intro hfree
        exact hfree rfl
      · intro hfree _
        exact hfree
    | sqlite =>
      rw [shadowed_sqlite_iff, Sql.Dialect.cursorTerm]
      by_cases hinstant : sel.increment.kind = .dateTime
      · simp [hinstant]
      · simp [hinstant]
  · rintro rfl hordered stored found hfound
    exact Selecting.rows_ordered hfound ((hordered _).2 rfl)

end Descriptor

namespace Journal

/-- The journal with ranks, which are read as the entries' identifiers, and these as numbers. -/
def exchangedSettings : TableSettings :=
  ⟨"journal", none, [], [("id", "number"), ("rank", "id")], [], none, none, none,
    ⟨"id", none, none, [], [], [], true⟩⟩

/-- Its description. -/
def exchangedDescriptor : Descriptor :=
  ⟨"journal", "journal", [], [("id", "number"), ("rank", "id")], [], none,
    exchangedSettings.cursor⟩

/-- Its columns. -/
def exchangedSchema : Schema :=
  ⟨"journal",
    [⟨"id", "INTEGER", "INTEGER", .integer, false⟩, ⟨"rank", "INTEGER", "INTEGER", .integer, false⟩]⟩

/-- What is read of it. -/
def exchangedSelection (dialect : Sql.Dialect) : Selection :=
  ⟨dialect, "journal", [⟨.column "id", "number"⟩, ⟨.column "rank", "id"⟩],
    ⟨"id", "INTEGER", "INTEGER", .integer, false⟩, none, none⟩

/-- Three entries; the last one has the least rank. -/
def exchangedEntries : StoredTable :=
  ⟨"journal", [⟨"id", "INTEGER", false⟩, ⟨"rank", "INTEGER", false⟩],
    [[.integer 1, .integer 9], [.integer 2, .integer 5], [.integer 3, .integer 1]]⟩

/-- An entry as a query for the entries above zero sees it. -/
def exchangedScope (id rank : Int64) : Selecting.Scope :=
  ⟨[.integer 0], exchangedEntries.columns, [.integer id, .integer rank]⟩

/-- Neither database orders the entries by their numbers; the first two that a stored table answers
are the last ones, and the greater number comes first. -/
theorem entries_ordered_by_rank :
    (∀ dialect : Sql.Dialect, ¬ ∀ term,
      ((exchangedSelection dialect).singleScan (.integer 0) 2).select.OrderedBy dialect term ↔
        term = dialect.cursorTerm (exchangedSelection dialect).increment) ∧
      Selecting.rows exchangedEntries
        ((exchangedSelection .sqlite).singleScan (.integer 0) 2) =
          some [[.integer 3, .integer 1], [.integer 2, .integer 5]] := by
  have haccepted : Descriptor.ofSettings exchangedSettings = .ok exchangedDescriptor := by
    decide +kernel
  have hfits : exchangedDescriptor.misfit? exchangedSchema = none := by decide +kernel
  have hscan : ∀ dialect, (exchangedSelection dialect).IsScan
      ((exchangedSelection dialect).singleScan (.integer 0) 2) := fun _ => .inl ⟨_, _, rfl⟩
  have hselection : ∀ dialect, Selection.of exchangedDescriptor exchangedSchema dialect "journal" =
      .ok (exchangedSelection dialect) := fun _ => rfl
  constructor
  · intro dialect hordered
    obtain ⟨hfree, -⟩ := Descriptor.scans_ordered_by_increment haccepted hfits
      (hselection dialect) (hscan dialect)
    cases dialect with
    | postgres => exact hfree.1 hordered ⟨"rank", by decide, by decide⟩
    | sqlite =>
      rcases hfree.1 hordered with hinstant | hfirst
      · cases hinstant
      · apply hfirst
        exact ⟨["id"], "rank", [], by decide, by decide, by decide, by decide⟩
  · have hkeyed : Selecting.rows exchangedEntries
        ((exchangedSelection .sqlite).singleScan (.integer 0) 2) =
        ((Selecting.sortByKey [(Stored.integer 9, exchangedScope 1 9),
          (.integer 5, exchangedScope 2 5), (.integer 1, exchangedScope 3 1)]).take 2).mapM
          fun p => Selecting.project p.2 (exchangedSelection .sqlite).items := by rfl
    have hsorted : ∀ a b c : Selecting.Scope, Selecting.sortByKey
        [(Stored.integer 9, a), (.integer 5, b), (.integer 1, c)] =
          [(Stored.integer 1, c), (.integer 5, b), (.integer 9, a)] := by
      intro a b c
      have hfive : (Stored.integer 9).compareStored (.integer 5) = .gt := rfl
      have hone : (Stored.integer 5).compareStored (.integer 1) = .gt := rfl
      simp [Selecting.sortByKey, List.mergeSort, hfive, hone]
    rw [hkeyed, hsorted]
    rfl

end Journal

end TableTail
