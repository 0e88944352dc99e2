import TableTail.Tail.Partitions

/-!
# Cursors

The reading state of a table: one mark for the whole of it, or one for each identity. The mode is
chosen when the table is opened and does not change. A checkpoint is the part of the state that
outlives the process.
-/

namespace TableTail

/-- The reading state of a table. -/
inductive Cursor
  | single (after : Mark) (idle : Option Idle)
  | partitioned (partitions : Partitions)
  deriving Repr

instance : Inhabited Cursor := ⟨.single default none⟩

/-- What is kept of a cursor: its marks, and which of them name a row that is still to be read. -/
inductive Checkpoint
  | single (after : Mark)
  | partitioned (positions : Named Mark) (unread : List String)
  deriving DecidableEq, Repr

namespace Cursor

/-- The checkpoint of a cursor. -/
def checkpoint : Cursor → Checkpoint
  | single after _ => .single after
  | partitioned ps => .partitioned ps.positions ps.unread

/-- Whether the cursor keeps a mark for each identity. -/
def isPartitioned : Cursor → Bool
  | single _ _ => false
  | partitioned _ => true

/-- The partitions of a cursor; a single one has none. -/
def partitions : Cursor → Partitions
  | single _ _ => Partitions.empty
  | partitioned ps => ps

/-- The number of empty polls in a row that an idle state stands for. -/
def emptyPolls (idle : Option Idle) : Nat := (idle.map (·.count)).getD 0

end Cursor

end TableTail
