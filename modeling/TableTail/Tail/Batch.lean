import TableTail.Delivery.Record
import TableTail.Tail.Cursor

/-!
# Batches

What one read of a table brings: the records, and by how much each of the table's units moved, so
that the moves can be undone when the records cannot be delivered.
-/

namespace TableTail

/-- The move of a unit: a partition by its identity, or the whole table. -/
structure Advance where
  unit : Option String
  before : Mark
  wasUnread : Bool
  after : Mark
  deriving DecidableEq, Repr

/-- The result of a read. Idle units issue no query; `filled` tells that a unit returned as many
rows as it may, so that more are likely to wait. -/
structure Batch where
  records : List Record
  advances : List Advance
  queries : Nat
  filled : Bool
  deriving BEq, Repr

namespace Batch

/-- A batch without queries. -/
def empty : Batch := ⟨[], [], 0, false⟩

/-- A batch without records but with one more query. -/
def asked (b : Batch) : Batch := { b with queries := b.queries + 1 }

/-- The batch with the records of one more unit behind it, and the unit's move if it moved. -/
def add (b : Batch) (records : List Record) (advance : Option Advance) (filled : Bool) : Batch :=
  ⟨b.records ++ records, b.advances ++ advance.toList, b.queries, b.filled || filled⟩

end Batch

end TableTail
