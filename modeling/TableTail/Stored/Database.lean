import TableTail.Sql.Dialect
import TableTail.Sql.Row
import TableTail.Stored.Instant

/-!
# Stored databases

Tables held in memory that answer the tailer's statements as SQLite does. A comparison with a
column's cell converts the other side towards the column's affinity and is not met when a side is
NULL. In an ordering a bare name that is the label of an output column denotes that column;
everywhere else a name denotes the table's own column. Names are looked up without regard to case.
-/

namespace TableTail

/-- A column of a stored table. -/
structure StoredColumn where
  name : String
  declared : String
  nullable : Bool
  deriving DecidableEq, Repr

/-- A stored table; every row has a value for each column. -/
structure StoredTable where
  name : String
  columns : List StoredColumn
  rows : List (List Stored)
  deriving Repr

/-- A stored database. -/
structure Database where
  tables : List StoredTable
  deriving Repr

namespace StoredTable

/-- A name without regard to the case of its ASCII letters. -/
def foldName (name : String) : List Char := name.toList.map Sql.lowerAscii

/-- A column as it is described. -/
def describeColumn (c : StoredColumn) : Sql.Column :=
  { Sql.Column.ofDeclared c.name c.declared with nullable := c.nullable }

/-- Cells as the columns keep them; missing ones are NULL. -/
def storedRow : List StoredColumn → List Sql.Cell → List Stored
  | [], _ => []
  | _ :: columns, [] => .null :: storedRow columns []
  | c :: columns, cell :: cells =>
    (Affinity.ofDeclared c.declared).store (Stored.ofCell cell) :: storedRow columns cells

/-- The table with more rows behind its own. -/
def insert (t : StoredTable) (rows : List (List Sql.Cell)) : StoredTable :=
  { t with rows := t.rows ++ rows.map (storedRow t.columns) }

/-- The value and the affinity of a column in a row. -/
def columnValue : List StoredColumn → List Stored → String → Option (Stored × Affinity)
  | c :: columns, v :: row, name =>
    if foldName c.name = foldName name then some (v, Affinity.ofDeclared c.declared)
    else columnValue columns row name
  | _, _, _ => none

end StoredTable

namespace Selecting

/-- What an expression is evaluated in: the parameters and a row. -/
structure Scope where
  parameters : List Stored
  columns : List StoredColumn
  row : List Stored

/-- The value and the affinity of a column. -/
def Scope.column (s : Scope) (name : String) : Option (Stored × Affinity) :=
  StoredTable.columnValue s.columns s.row name

/-- The parameter with an index, counted from one. -/
def Scope.parameter (s : Scope) (index : Nat) : Stored := (s.parameters[index - 1]?).getD .null

/-- The value of an expression; configured SQL has none here. -/
def value (s : Scope) : Sql.Term → Option Stored
  | .column name => (s.column name).map (·.1)
  | .configured _ => none
  | .parameter index => some (s.parameter index)
  | .castParameter index _ => some (s.parameter index)
  | .instant t => (value s t).map Instant.ofStored
  | .unixInstant t => (value s t).map Instant.ofUnixSeconds
  | .byStorage name a b =>
    match s.column name with
    | some (.integer _, _) => value s a
    | some _ => value s b
    | none => none
  | .minimum t => value s t

/-- The affinity with which an expression is compared; only columns have one. -/
def affinity (s : Scope) : Sql.Term → Option Affinity
  | .column name => (s.column name).map (·.2)
  | _ => none

/-- Two values as they are compared. -/
def adapted (left right : Option Affinity) (a b : Stored) : Stored × Stored :=
  match left, right with
  | some x, none => (a, x.adapt b)
  | none, some y => (y.adapt a, b)
  | some x, some y =>
    if x.isNumeric ∧ !y.isNumeric then (a, x.adapt b)
    else if y.isNumeric ∧ !x.isNumeric then (y.adapt a, b)
    else (a, b)
  | none, none => (a, b)

/-- The order of two values that are not NULL. -/
def ordering (a b : Stored) : Option Ordering :=
  if a = .null ∨ b = .null then none else some (a.compareStored b)

/-- Whether a comparison is met. -/
def meets : Sql.Comparison → Option Ordering → Bool
  | .equal, some o => o == .eq
  | .above, some o => o == .gt
  | .atLeast, some o => o != .lt
  | _, none => false

/-- The order of the values of two expressions. -/
def compareTerms (s : Scope) (left right : Sql.Term) : Option (Option Ordering) := do
  let a ← value s left
  let b ← value s right
  let (a, b) := adapted (affinity s left) (affinity s right) a b
  return ordering a b

/-- Whether a row meets a condition; configured SQL cannot be told. -/
def holds (s : Scope) : Sql.Condition → Option Bool
  | .compare left c right => (compareTerms s left right).map (meets c)
  | .isNotNull t => (value s t).map fun v => v ≠ .null
  | .among t list => do
    let orders ← list.mapM (compareTerms s t)
    return orders.any (meets .equal)
  | .notAmong t list => do
    let orders ← list.mapM (compareTerms s t)
    return orders.all fun o => o.isSome && !meets .equal o
  | .configured _ => none

/-- Whether a row meets all conditions. -/
def holdsAll (s : Scope) (conditions : List Sql.Condition) : Option Bool := do
  let met ← conditions.mapM (holds s)
  return met.all id

/-- The value that a row is ordered by. -/
def orderValue (s : Scope) (items : List Sql.Item) (key : Sql.Term) : Option Stored :=
  match key with
  | .column name =>
    match items.find? fun i => StoredTable.foldName i.label = StoredTable.foldName name with
    | some item => value s item.value
    | none => value s key
  | _ => value s key

/-- Pairs in the order of their first parts; equal ones stay in their order. -/
def sortByKey {α : Type} (l : List (Stored × α)) : List (Stored × α) :=
  l.mergeSort fun a b => a.1.compareStored b.1 != .gt

/-- The values of the selected expressions in a row. -/
def project (s : Scope) (items : List Sql.Item) : Option (List Stored) :=
  items.mapM fun i => value s i.value

/-- The least of some values, NULLs left out. -/
def least (values : List Stored) : Stored :=
  values.foldl (fun m v =>
    if v = .null then m
    else if m = .null then v
    else if v.compareStored m = .lt then v else m) .null

/-- Rows with equal keys that follow each other, as groups. -/
def groups {α : Type} : List (Stored × α) → List (List α)
  | [] => []
  | (k, a) :: rest =>
    match rest, groups rest with
    | (k', _) :: _, g :: gs =>
      if k.compareStored k' = .eq then (a :: g) :: gs else [a] :: g :: gs
    | _, gs => [a] :: gs

/-- The value of a selected expression in a group of rows. -/
def groupValue (group : List Scope) (item : Sql.Item) : Option Stored :=
  match item.value with
  | .minimum t => (group.mapM fun s => value s t).map least
  | t => group.head?.bind fun s => value s t

/-- The rows that a statement selects from some rows. -/
def arrange (select : Sql.Select) (scopes : List Scope) : Option (List (List Stored)) :=
  match select.arrangement with
  | .ordered key limit => do
    let keyed ← scopes.mapM fun s =>
      (orderValue s select.items key).map fun v => (v, s)
    ((sortByKey keyed).take limit).mapM fun p => project p.2 select.items
  | .grouped key => do
    let keyed ← scopes.mapM fun s => (value s key).map fun v => (v, s)
    (groups (sortByKey keyed)).mapM fun g => select.items.mapM (groupValue g)

/-- The rows of a table that a query selects, as far as the query says so itself. -/
def rows (t : StoredTable) (q : Sql.Query) : Option (List (List Stored)) := do
  let parameters := q.parameters.map Stored.ofCell
  let scopes := t.rows.map fun row => (⟨parameters, t.columns, row⟩ : Scope)
  let kept ← scopes.mapM fun s =>
    (holdsAll s q.select.conditions).map fun met => if met then [s] else []
  arrange q.select kept.flatten

end Selecting

namespace Database

/-- The table with a name. -/
def table? (db : Database) (name : String) : Option StoredTable :=
  db.tables.find? fun t => StoredTable.foldName t.name = StoredTable.foldName name

/-- The live columns of a table. -/
def describe (db : Database) (name : String) : Option (List Sql.Column) :=
  (db.table? name).map fun t => t.columns.map StoredTable.describeColumn

/-- The table that a statement refers to. -/
def referred? (db : Database) (reference : String) : Option StoredTable :=
  db.tables.find? fun t =>
    StoredTable.foldName (Sql.quoted t.name) = StoredTable.foldName reference

/-- The rows that a query selects, nothing when it cannot be evaluated. -/
def select (db : Database) (q : Sql.Query) : Option (List Sql.Row) := do
  let t ← db.referred? q.select.table
  let rows ← Selecting.rows t q
  let labels := q.select.items.map (·.label)
  return rows.map fun row => ⟨labels, row.map Stored.toCell⟩

/-- The database with more rows in a table. -/
def insert (db : Database) (name : String) (rows : List (List Sql.Cell)) : Database :=
  ⟨db.tables.map fun t =>
    if StoredTable.foldName t.name = StoredTable.foldName name then t.insert rows else t⟩

/-- The database without a table. -/
def drop (db : Database) (name : String) : Database :=
  ⟨db.tables.filter fun t => StoredTable.foldName t.name ≠ StoredTable.foldName name⟩

end Database

end TableTail
