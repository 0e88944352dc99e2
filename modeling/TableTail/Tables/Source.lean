import TableTail.Sql.Dialect

/-!
# Sources

What the tailer has to know about a connected database: its dialect, the catalog under whose name
checkpoints are kept, and the schema of its tables.
-/

namespace TableTail

/-- A connected database. -/
structure Source where
  dialect : Sql.Dialect
  catalog : String
  schema : String
  deriving DecidableEq, Repr

/-- The reference to a table of the database. -/
def Source.tableRef (s : Source) (table : String) : String := s.dialect.tableRef s.schema table

end TableTail
