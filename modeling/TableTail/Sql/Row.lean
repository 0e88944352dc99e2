import TableTail.Sql.Cell

/-!
# Rows

A row of a result set: the labels of the result's columns and the cells. A label may occur twice;
looking it up gives the first cell, and in a record's body the last one that is not NULL counts.
-/

namespace TableTail.Sql

/-- A row of a result set. -/
structure Row where
  labels : List String
  cells : List Cell
  deriving BEq, Repr

namespace Row

/-- The cell under the first column with a label. -/
def get? (label : String) (r : Row) : Option Cell :=
  (r.labels.idxOf? label).bind fun i => r.cells[i]?

/-- The row as a record's body: its cells by label, without those that are NULL. -/
def toFields (r : Row) : Named Json :=
  Named.ofPairs (((r.labels.zip r.cells).filter fun p => !p.2.isNull).map fun p =>
    (p.1, p.2.toJson))

end Row

end TableTail.Sql
