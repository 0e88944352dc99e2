import TableTail.Sql.Column
import TableTail.Tables.Descriptor
import TableTail.Tail.Mark

/-!
# Live schemas

The columns that a database reports for a table, and the check that a description fits them: every
column it mentions exists, renames and conversions stay within the columns that may be seen, and
the increment column can be put in order.
-/

namespace TableTail

/-- The live columns of a table. -/
structure Schema where
  table : String
  columns : List Sql.Column
  deriving DecidableEq, Repr

/-- The live column with a name. -/
def Schema.column? (s : Schema) (name : String) : Option Sql.Column :=
  s.columns.find? fun c => c.name = name

/-- Why a description does not fit the live schema. -/
inductive SchemaFault
  | noTable (catalog : String)
  | noColumn (column : String)
  | noIncrement (column : String)
  | unordered (column declared : String)
  | noIdentity (column : String)
  | incrementNotSelected
  | identityNotSelected
  | noCursorKind
  deriving DecidableEq, Repr

/-- The wording of a schema's fault. -/
def SchemaFault.message : SchemaFault → String
  | .noTable catalog => "table does not exist in catalog '" ++ catalog ++ "'"
  | .noColumn column => "configured column '" ++ column ++ "' does not exist"
  | .noIncrement column => "increment column '" ++ column ++ "' does not exist"
  | .unordered column declared =>
    "increment column '" ++ column ++ "' has type '" ++ declared ++
      "', which cannot be ordered as a cursor"
  | .noIdentity column => "identity column '" ++ column ++ "' does not exist"
  | .incrementNotSelected => "increment column missing from schema"
  | .identityNotSelected => "identity column missing from schema"
  | .noCursorKind => "increment column cannot drive a cursor"

/-- What a description may not refer to. -/
inductive AccessFault
  | column (owner name : String)
  | table (name : String)
  deriving DecidableEq, Repr

/-- The wording of a refused access. -/
def AccessFault.message : AccessFault → String
  | .column owner name => "column '" ++ name ++ "' of table '" ++ owner ++ "' is not accessible"
  | .table name => "table '" ++ name ++ "' is not in the allow-list"

/-- The two ways in which a description can fail against a schema. -/
inductive Misfit
  | schema (fault : SchemaFault)
  | access (fault : AccessFault)
  deriving DecidableEq, Repr

namespace Descriptor

/-- The refusal of a column that may not be seen. -/
def accessFault? (d : Descriptor) (column : String) : Option AccessFault :=
  if d.isAccessible column then none else some (.column d.name column)

/-- The columns that the description names besides those of the cursor. -/
def mentioned (d : Descriptor) : List String :=
  d.columns ++ Named.names d.renames ++ Named.names d.converts

/-- Whether a column is one of the cursor's. -/
def isCursorColumn (d : Descriptor) (column : String) : Bool :=
  column = d.cursor.increment || d.cursor.identity = some column

/-- The first way in which the description does not fit a schema. -/
def misfit? (d : Descriptor) (s : Schema) : Option Misfit :=
  (d.mentioned.find? fun c => (s.column? c).isNone).map (fun c => .schema (.noColumn c)) <|>
  ((Named.names d.renames ++ Named.names d.converts).findSome? fun c =>
    if d.isCursorColumn c then none else d.accessFault? c).map .access <|>
  (match s.column? d.cursor.increment with
    | none => some (.schema (.noIncrement d.cursor.increment))
    | some c =>
      if (MarkKind.ofColumn? c.kind).isNone then some (.schema (.unordered c.name c.declared))
      else none) <|>
  (d.cursor.identity.bind fun c =>
    if (s.column? c).isNone then some (.schema (.noIdentity c)) else none)

end Descriptor

end TableTail
