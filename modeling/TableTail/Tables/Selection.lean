import TableTail.Sql.Dialect
import TableTail.Tables.Schema

/-!
# Selections

The statements that read one table. A scan selects the rows past a mark in ascending order, up to a
limit; the minimum query selects the least increment of each identity. Rows are ordered by the
increment column alone: of rows with equal increments some may fall behind the limit, and the next
scan, which starts strictly above its mark, then passes over them.
-/

namespace TableTail

/-- What is needed to read a table. -/
structure Selection where
  dialect : Sql.Dialect
  table : String
  items : List Sql.Item
  increment : Sql.Column
  identity : Option Sql.Column
  filter : Option String
  deriving Repr

namespace Selection

/-- The label of the identity in the result of a minimum query. -/
def identityLabel : String := "identity"

/-- The label of the least increment in the result of a minimum query. -/
def minimumLabel : String := "minimum"

/-- The list with a column behind it, unless it is in it. -/
def addColumn (columns : List String) (column : String) : List String :=
  if columns.contains column then columns else columns ++ [column]

/-- The columns that are read: those that may be seen, and those of the cursor. -/
def projected (d : Descriptor) (s : Schema) : List String :=
  let visible := if d.columns.isEmpty then s.columns.map (·.name) else d.columns
  (d.cursor.increment :: d.cursor.identity.toList).foldl addColumn visible

/-- A column as it is read, under its label. -/
def item (d : Descriptor) (column : String) : Sql.Item :=
  ⟨match d.convertOf column with
    | some sql => .configured sql
    | none => .column column,
    d.labelOf column⟩

/-- The selection for a described table with a live schema. -/
def of (d : Descriptor) (s : Schema) (dialect : Sql.Dialect) (table : String) :
    Except SchemaFault Selection :=
  match s.column? d.cursor.increment with
  | none => .error .incrementNotSelected
  | some increment =>
    let items := (projected d s).map (item d)
    match d.cursor.identity with
    | none => .ok ⟨dialect, table, items, increment, none, d.filter⟩
    | some name =>
      match s.column? name with
      | none => .error .identityNotSelected
      | some identity => .ok ⟨dialect, table, items, increment, some identity, d.filter⟩

/-- The configured condition on rows. -/
def staticConditions (s : Selection) : List Sql.Condition :=
  s.filter.toList.map .configured

/-- The condition that the cursor's column is past the parameter with an index. -/
def pastParameter (s : Selection) (index : Nat) (comparison : Sql.Comparison) : Sql.Condition :=
  .compare (s.dialect.cursorTerm s.increment) comparison
    (s.dialect.cursorPlaceholder index s.increment)

/-- The rows that meet some conditions, in ascending order, up to a limit. -/
def scan (s : Selection) (conditions : List Sql.Condition) (limit : Nat) : Sql.Select :=
  ⟨s.items, s.table, conditions ++ s.staticConditions,
    .ordered (s.dialect.cursorTerm s.increment) limit⟩

/-- The rows past a mark. -/
def singleScan (s : Selection) (after : Sql.Cell) (limit : Nat) : Sql.Query :=
  ⟨s.scan [s.pastParameter 1 .above] limit, [after]⟩

/-- The condition that a row belongs to the identity in the first parameter. -/
def ofIdentity (s : Selection) : List Sql.Condition :=
  s.identity.toList.map fun c => .compare (.column c.name) .equal (s.dialect.placeholder 1 c)

/-- The rows of an identity past a mark, or from it on when its own row is still unread. -/
def partitionScan (s : Selection) (identity after : Sql.Cell) (unread : Bool) (limit : Nat) :
    Sql.Query :=
  ⟨s.scan (s.ofIdentity ++ [s.pastParameter 2 (if unread then .atLeast else .above)]) limit,
    [identity, after]⟩

/-- Parameters compared with the identity column, counted from `first` on. -/
def identityParameters (s : Selection) (c : Sql.Column) (first count : Nat) : List Sql.Term :=
  (List.range' first count).map fun i => s.dialect.placeholder i c

/-- The conditions of a minimum query: identities that are not NULL, among the includes when there
are any, and not among the excludes. -/
def minimumConditions (s : Selection) (c : Sql.Column) (includes excludes : Nat) :
    List Sql.Condition :=
  .isNotNull (.column c.name) ::
    ((if includes = 0 then []
      else [.among (.column c.name) (s.identityParameters c 1 includes)]) ++
    (if excludes = 0 then []
      else [.notAmong (.column c.name) (s.identityParameters c (includes + 1) excludes)]) ++
    s.staticConditions)

/-- The least increment of each identity; a table without identities has no such query. -/
def minimums (s : Selection) (includes excludes : List Sql.Cell) : Option Sql.Query :=
  s.identity.map fun c =>
    ⟨⟨[⟨.column c.name, identityLabel⟩,
        ⟨.minimum (s.dialect.cursorTerm s.increment), minimumLabel⟩],
      s.table, s.minimumConditions c includes.length excludes.length, .grouped (.column c.name)⟩,
      includes ++ excludes⟩

end Selection

end TableTail
