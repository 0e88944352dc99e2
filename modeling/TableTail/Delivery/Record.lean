import TableTail.Json.Printing
import TableTail.Sql.Row

/-!
# Records

What is delivered for a row: the name of its table, and its cells by label without those that are
NULL. As JSON a record is one line, with the headers before the body.
-/

namespace TableTail

/-- A delivered row. -/
structure Record where
  table : String
  body : Named Json
  deriving BEq, Repr

namespace Record

/-- The record of a row. -/
def ofRow (table : String) (row : Sql.Row) : Record := ⟨table, row.toFields⟩

/-- The header that names the table. -/
def tableHeader : String := "table"

/-- The headers of a record. -/
def headers (r : Record) : Json := .object [(tableHeader, .string r.table)]

/-- A record as one JSON text. -/
def text (r : Record) : String :=
  "\x7b\"headers\":" ++ r.headers.text ++ ",\"body\":" ++ (Json.object r.body).text ++ "\x7d"

/-- Records as lines. -/
def lines (records : List Record) : String :=
  String.join (records.map fun r => r.text ++ "\n")

end Record

end TableTail
