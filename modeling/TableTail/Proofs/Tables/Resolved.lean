import TableTail.Proofs.Tables.Ordering
import TableTail.Proofs.Tables.Registered

/-!
# What a resolved table needs no more

A description is compared with the live schema once, when the schema is resolved. Later the
statements are made, the increment column's kind is looked up and rows are asked for, and each of
these steps looks for columns of its own. That none of them can miss one follows from the check:
every column that a statement names is a live one (`Selection.Poses.names_subset`), where the names
that a statement has in quotes are told from the configured SQL in it by its syntax
(`Sql.Select.names`).

The same check limits what is seen: besides the cursor's columns a statement reads exactly those
that may be seen.
-/

namespace TableTail

namespace Sql

/-- The columns that an expression names; configured SQL is not looked into. -/
def Term.names : Term → List String
  | column name => [name]
  | configured _ => []
  | parameter _ => []
  | castParameter _ _ => []
  | instant value => value.names
  | unixInstant seconds => seconds.names
  | byStorage name a b => name :: (a.names ++ b.names)
  | minimum value => value.names

/-- The columns that a condition names. -/
def Condition.names : Condition → List String
  | compare left _ right => left.names ++ right.names
  | isNotNull value => value.names
  | among value list => value.names ++ list.flatMap Term.names
  | notAmong value list => value.names ++ list.flatMap Term.names
  | configured _ => []

/-- The columns that rows are ordered or grouped by. -/
def Arrangement.names : Arrangement → List String
  | ordered key _ => key.names
  | grouped key => key.names

/-- The columns that a statement names. -/
def Select.names (s : Select) : List String :=
  s.items.flatMap (·.value.names) ++ s.conditions.flatMap Condition.names ++ s.arrangement.names

namespace Dialect

variable (dialect : Dialect) (index : Nat) (column : Column)

@[simp] lemma names_placeholder : (dialect.placeholder index column).names = [] := by
  cases dialect with
  | postgres => rfl
  | sqlite => rfl

@[simp] lemma names_cursorPlaceholder : (dialect.cursorPlaceholder index column).names = [] := by
  cases dialect with
  | postgres => rfl
  | sqlite =>
    rw [cursorPlaceholder]
    split
    · rfl
    · rfl

/-- A cursor is compared by its column alone. -/
@[simp] lemma mem_names_cursorTerm {name : String} :
    name ∈ (dialect.cursorTerm column).names ↔ name = column.name := by
  cases dialect with
  | postgres => exact List.mem_singleton
  | sqlite =>
    rw [cursorTerm]
    split
    · simp [Term.names]
    · exact List.mem_singleton

end Dialect

end Sql

namespace Selection

variable {d : Descriptor} {sel : Selection} {q : Sql.Query}

/-- The statements by which a table is read: scans, and the minimum query. -/
def Poses (sel : Selection) (q : Sql.Query) : Prop :=
  sel.IsScan q ∨ ∃ includes excludes, sel.minimums includes excludes = some q

/-- The columns that a selection has to do with. -/
def names (sel : Selection) : List String :=
  sel.items.flatMap (·.value.names) ++ sel.increment.name :: sel.identity.toList.map (·.name)

lemma mem_names {name : String} :
    name ∈ sel.names ↔ name ∈ sel.items.flatMap (·.value.names) ∨ name = sel.increment.name ∨
      ∃ c ∈ sel.identity, c.name = name := by
  simp only [names, List.mem_append, List.mem_cons, List.mem_map, Option.mem_toList,
    Option.mem_def]

/-- The configured conditions name no column. -/
lemma names_staticConditions (sel : Selection) :
    sel.staticConditions.flatMap Sql.Condition.names = [] := by
  cases hfilter : sel.filter <;> simp [staticConditions, hfilter, Sql.Condition.names]

/-- A cursor's condition names the increment column. -/
lemma mem_names_pastParameter {index : Nat} {comparison : Sql.Comparison} {name : String} :
    name ∈ (sel.pastParameter index comparison).names ↔ name = sel.increment.name := by
  simp [pastParameter, Sql.Condition.names]

/-- The condition on the identity names the identity column. -/
lemma mem_names_ofIdentity {name : String} :
    name ∈ sel.ofIdentity.flatMap Sql.Condition.names ↔ ∃ c ∈ sel.identity, c.name = name := by
  cases hidentity : sel.identity <;>
    simp [ofIdentity, hidentity, Sql.Condition.names, Sql.Term.names, eq_comm]

/-- Parameters name no column. -/
lemma names_identityParameters (sel : Selection) (c : Sql.Column) (first count : Nat) :
    (sel.identityParameters c first count).flatMap Sql.Term.names = [] := by
  rw [List.flatMap_eq_nil_iff]
  intro term hterm
  obtain ⟨index, -, rfl⟩ := List.mem_map.1 hterm
  exact sel.dialect.names_placeholder index c

/-- The conditions of a minimum query name the identity column. -/
lemma mem_names_minimumConditions {c : Sql.Column} {includes excludes : Nat} {name : String}
    (h : name ∈ (sel.minimumConditions c includes excludes).flatMap Sql.Condition.names) :
    name = c.name := by
  have hlist : ∀ (count : Nat) (condition : Sql.Condition), condition.names = [c.name] →
      name ∈ (if count = 0 then [] else [condition]).flatMap Sql.Condition.names →
        name = c.name := by
    intro count condition hnames hmem
    split at hmem
    · cases hmem
    · simpa [hnames] using hmem
  rw [minimumConditions, List.flatMap_cons, List.flatMap_append, List.flatMap_append,
    names_staticConditions, List.append_nil] at h
  rcases List.mem_append.1 h with hnotNull | h
  · exact List.mem_singleton.1 hnotNull
  · rcases List.mem_append.1 h with hincludes | hexcludes
    · apply hlist _ _ _ hincludes
      simp [Sql.Condition.names, names_identityParameters, Sql.Term.names]
    · apply hlist _ _ _ hexcludes
      simp [Sql.Condition.names, names_identityParameters, Sql.Term.names]

/-- A scan names what is read, what its conditions name, and the increment column. -/
lemma mem_names_scan {conditions : List Sql.Condition} {limit : Nat} {name : String} :
    name ∈ (sel.scan conditions limit).names ↔
      name ∈ sel.items.flatMap (·.value.names) ∨
        name ∈ conditions.flatMap Sql.Condition.names ∨ name = sel.increment.name := by
  simp only [scan, Sql.Select.names, Sql.Arrangement.names, List.mem_append, List.flatMap_append,
    names_staticConditions, List.append_nil, Sql.Dialect.mem_names_cursorTerm, or_assoc]

/-- A statement names columns of its selection only. -/
lemma Poses.names_subset (h : sel.Poses q) : ∀ name ∈ q.select.names, name ∈ sel.names := by
  intro name hname
  rw [mem_names]
  rcases h with (⟨after, limit, rfl⟩ | ⟨identity, after, unread, limit, rfl⟩) |
    ⟨includes, excludes, hminimums⟩
  · rcases mem_names_scan.1 hname with hitem | hpast | hkey
    · exact .inl hitem
    · rw [List.flatMap_singleton, mem_names_pastParameter] at hpast
      exact .inr (.inl hpast)
    · exact .inr (.inl hkey)
  · rcases mem_names_scan.1 hname with hitem | hconditions | hkey
    · exact .inl hitem
    · rw [List.flatMap_append, List.mem_append, mem_names_ofIdentity, List.flatMap_singleton,
        mem_names_pastParameter] at hconditions
      rcases hconditions with hidentity | hpast
      · exact .inr (.inr hidentity)
      · exact .inr (.inl hpast)
    · exact .inr (.inl hkey)
  · obtain ⟨c, hc, rfl⟩ := Option.map_eq_some_iff.1 hminimums
    rw [Sql.Select.names, List.mem_append, List.mem_append] at hname
    rcases hname with (hitem | hcondition) | hgroup
    · simp only [List.flatMap_cons, List.flatMap_nil, List.append_nil, List.mem_append,
        Sql.Term.names, List.mem_singleton, Sql.Dialect.mem_names_cursorTerm] at hitem
      rcases hitem with hidentity | hincrement
      · exact .inr (.inr ⟨c, hc, hidentity.symm⟩)
      · exact .inr (.inl hincrement)
    · exact .inr (.inr ⟨c, hc, (mem_names_minimumConditions hcondition).symm⟩)
    · exact .inr (.inr ⟨c, hc, (List.mem_singleton.1 hgroup).symm⟩)

/-- A column that is read is named, unless configured SQL is read instead. -/
lemma eq_of_mem_names_item {column name : String} (h : name ∈ (item d column).value.names) :
    name = column := by
  unfold item at h
  split at h
  · cases h
  · exact List.mem_singleton.1 h

end Selection

namespace Descriptor

variable {d : Descriptor} {s : Schema}

/-- Rows can be put in the order of an increment column that passed the check. -/
lemma ordered_of_misfit? {c : Sql.Column} (h : d.misfit? s = none)
    (hc : s.column? d.cursor.increment = some c) : (MarkKind.ofColumn? c.kind).isSome = true := by
  simp only [misfit?, Option.orElse_eq_none, hc] at h
  obtain ⟨-, -, hkind, -⟩ := h
  by_contra hnone
  simp [Option.not_isSome_iff_eq_none.1 hnone] at hkind

namespace Fitting

/-- The columns that are read are those that may be seen and those of the cursor. -/
lemma mem_projected_iff (h : d.Fitting s) {column : String} :
    column ∈ Selection.projected d s ↔
      (s.column? column).isSome = true ∧ d.isAccessible column = true ∨
        d.isCursorColumn column = true := by
  rw [Selection.mem_projected]
  refine or_congr_left ?_
  by_cases hall : d.columns = []
  · simp [hall, isAccessible, Schema.isSome_column?_iff]
  · have hlisted : d.isAccessible column = true ↔ column ∈ d.columns := by
      simp [isAccessible, hall]
    rw [if_neg (by simpa using hall), hlisted]
    constructor
    · intro hmem
      exact ⟨h.mentioned column (List.mem_append_left _ (List.mem_append_left _ hmem)), hmem⟩
    · rintro ⟨-, hmem⟩
      exact hmem

/-- All of them are live. -/
lemma live_of_projected (h : d.Fitting s) {column : String}
    (hcolumn : column ∈ Selection.projected d s) : (s.column? column).isSome = true := by
  rcases h.mem_projected_iff.1 hcolumn with ⟨hlive, -⟩ | hcursor
  · exact hlive
  · simp only [isCursorColumn, Bool.or_eq_true, decide_eq_true_eq] at hcursor
    rcases hcursor with rfl | hidentity
    · exact h.increment
    · exact h.identity column hidentity

/-- A description that fits has a selection, and this has to do with live columns only. -/
lemma exists_selection (h : d.Fitting s) (dialect : Sql.Dialect) (table : String) :
    ∃ sel, Selection.of d s dialect table = .ok sel ∧
      ∀ name ∈ sel.names, (s.column? name).isSome = true := by
  have hitems : ∀ name ∈ ((Selection.projected d s).map (Selection.item d)).flatMap
      (·.value.names), (s.column? name).isSome = true := by
    intro name hname
    obtain ⟨item, hitem, hname⟩ := List.mem_flatMap.1 hname
    obtain ⟨column, hcolumn, rfl⟩ := List.mem_map.1 hitem
    rw [Selection.eq_of_mem_names_item hname]
    exact h.live_of_projected hcolumn
  have hcursor : ∀ column c, s.column? column = some c → (s.column? c.name).isSome = true := by
    intro column c hc
    rw [Schema.name_of_column? hc, hc]
    rfl
  obtain ⟨increment, hincrement⟩ := Option.isSome_iff_exists.1 h.increment
  rw [Selection.of, hincrement]
  cases hidentity : d.cursor.identity with
  | none =>
    refine ⟨_, rfl, ?_⟩
    intro name hname
    rcases Selection.mem_names.1 hname with hitem | rfl | ⟨c, hc, -⟩
    · exact hitems name hitem
    · exact hcursor _ _ hincrement
    · cases hc
  | some column =>
    obtain ⟨identity, hcolumn⟩ := Option.isSome_iff_exists.1 (h.identity column hidentity)
    simp only [hcolumn]
    refine ⟨_, rfl, ?_⟩
    intro name hname
    rcases Selection.mem_names.1 hname with hitem | rfl | ⟨c, hc, rfl⟩
    · exact hitems name hitem
    · exact hcursor _ _ hincrement
    · obtain rfl := Option.some.inj hc
      exact hcursor _ _ hcolumn

end Fitting

/-- A description that passed the check has a reader. -/
lemma exists_reader (h : d.misfit? s = none) (source : Source) (policy : IdlePolicy) :
    ∃ r, Opening.readerOf source d s policy = .ok r := by
  obtain ⟨sel, hsel, -⟩ := (fitting_of_misfit? h).exists_selection source.dialect
    (source.tableRef d.name)
  obtain ⟨-, hincrement, -⟩ := Selection.items_of hsel
  obtain ⟨kind, hkind⟩ := Option.isSome_iff_exists.1 (ordered_of_misfit? h hincrement)
  rw [Opening.readerOf, hsel]
  simp only [hkind]
  exact ⟨_, rfl⟩

end Descriptor

/-- Once there is a reader, opening a table does not fail for its schema. -/
lemma Reader.open_ne_schema {root : String} {source : Source} {d : Descriptor} {s : Schema}
    {policy : IdlePolicy} {r : Reader} (h : Opening.readerOf source d s policy = .ok r)
    {table : String} {fault : SchemaFault} :
    ¬ (Reader.open root source d s policy).Returns (.error (.schema table fault)) := by
  intro hreturns
  simp only [Reader.open, h, Program.bind_eq] at hreturns
  obtain ⟨outcome, hinitial, hreturns⟩ := Program.returns_bind.1 hreturns
  cases outcome with
  | error e =>
    simp only [Program.pure_eq_done, Program.Returns, Except.error.injEq] at hreturns
    subst hreturns
    cases Opening.unopened_of_initialCursor hinitial
  | ok c => simp [Program.Returns] at hreturns

namespace Registry

/-- A schema that is kept is answered again, while the description fits it. -/
lemma resolve_of_cached {reg : Registry} {d : Descriptor} {s : Schema}
    (hcached : Named.get? d.name reg.schemas = some s) (hfits : d.misfit? s = none) :
    reg.resolve d =
      .done (.ok s, { reg with schemas := Named.set d.name s reg.schemas }) := by
  simp only [resolve, hcached, Program.pure_eq_done, Program.bind_eq, Program.done_bind, hfits]

/-- What follows from a table's schema being resolved. There is a selection for the table, whatever
the dialect; its statements name live columns only, and its rows have exactly the columns that may
be seen and those of the cursor. Opening the table does not fail for its schema, whatever the
database and the checkpoint's file answer. The schema is kept, and wherever it is kept the table is
resolved again with the same result. -/
theorem resolved_suffices {reg reg' : Registry} {d : Descriptor} {s : Schema}
    (h : (reg.resolve d).Returns (.ok s, reg')) :
    (∀ dialect table, ∃ sel, Selection.of d s dialect table = .ok sel ∧
      (∀ q, sel.Poses q → ∀ name ∈ q.select.names, (s.column? name).isSome = true) ∧
      ∃ columns : List String, sel.items = columns.map (Selection.item d) ∧
        ∀ column, column ∈ columns ↔
          (s.column? column).isSome = true ∧ d.isAccessible column = true ∨
            d.isCursorColumn column = true) ∧
    (∀ root source policy table fault,
      ¬ (Reader.open root source d s policy).Returns (.error (.schema table fault))) ∧
    Named.get? d.name reg'.schemas = some s ∧
    ∀ later : Registry, Named.get? d.name later.schemas = some s →
      ∃ schemas, later.resolve d = .done (.ok s, { later with schemas := schemas }) := by
  obtain ⟨e, hfailed, -⟩ | ⟨s', hfound, hfits, rfl⟩ := resolve_outcome h
  · cases hfailed
  · obtain rfl := Except.ok.inj hfound
    have hfitting := Descriptor.fitting_of_misfit? hfits
    refine ⟨?_, ?_, ?_, ?_⟩
    · intro dialect table
      obtain ⟨sel, hsel, hlive⟩ := hfitting.exists_selection dialect table
      obtain ⟨hitems, -, -⟩ := Selection.items_of hsel
      refine ⟨sel, hsel, ?_, Selection.projected d s, hitems, ?_⟩
      · intro q hq name hname
        exact hlive name (hq.names_subset name hname)
      · intro column
        exact hfitting.mem_projected_iff
    · intro root source policy table fault
      obtain ⟨r, hreader⟩ := Descriptor.exists_reader hfits source policy
      exact Reader.open_ne_schema hreader
    · exact Named.get?_set_self ..
    · intro later hcached
      exact ⟨_, resolve_of_cached hcached hfits⟩

end Registry

namespace Journal

/-- The journal's columns are resolved when its table is first described. -/
theorem resolved_journal :
    ((Registry.empty source "." .standard []).resolve descriptor).Returns
        (.ok schema, ⟨source, ".", .standard, [], [("journal", schema)], [], []⟩) ∧
      Named.get? "journal" [("journal", schema)] = some schema ∧
      ∀ root table fault, ¬ (Reader.open root source descriptor schema ⟨0, 0⟩).Returns
        (.error (.schema table fault)) := by
  have hresolved : ((Registry.empty source "." .standard []).resolve descriptor).Returns
      (.ok schema, ⟨source, ".", .standard, [], [("journal", schema)], [], []⟩) :=
    ⟨(.ok (some schema.columns) : Except DatabaseError (Option (List Sql.Column))), rfl⟩
  obtain ⟨-, hopens, hkept, -⟩ := Registry.resolved_suffices hresolved
  refine ⟨hresolved, hkept, ?_⟩
  intro root table fault
  exact hopens root source ⟨0, 0⟩ table fault

end Journal

end TableTail
