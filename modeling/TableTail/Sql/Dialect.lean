import TableTail.Sql.Column
import TableTail.Sql.Statement

/-!
# Dialects

The two flavours of SQL. On PostgreSQL every parameter is bound as text and cast to its column's
type. SQLite keeps dates and times as whatever was inserted, text in several layouts or seconds of
Unix time, so a cursor compares them as instants in one layout.
-/

namespace TableTail.Sql

/-- A flavour of SQL. -/
inductive Dialect
  | postgres
  | sqlite
  deriving DecidableEq, Repr

namespace Dialect

/-- The parameter that is compared with a column. -/
def placeholder : Dialect → Nat → Column → Term
  | postgres, index, column => .castParameter index column.castType
  | sqlite, index, _ => .parameter index

/-- What a cursor compares and orders by. -/
def cursorTerm : Dialect → Column → Term
  | sqlite, column =>
    if column.kind = .dateTime then
      .byStorage column.name (.unixInstant (.column column.name)) (.instant (.column column.name))
    else .column column.name
  | postgres, column => .column column.name

/-- The parameter that is compared with a cursor's column. -/
def cursorPlaceholder : Dialect → Nat → Column → Term
  | sqlite, index, column =>
    if column.kind = .dateTime then .instant (.parameter index) else .parameter index
  | postgres, index, column => placeholder postgres index column

/-- The reference to a table; only PostgreSQL has schemas. -/
def tableRef : Dialect → (schema table : String) → String
  | postgres, schema, table => quoted schema ++ "." ++ quoted table
  | sqlite, _, table => quoted table

end Dialect

end TableTail.Sql
