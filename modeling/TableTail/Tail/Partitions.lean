import TableTail.Named
import TableTail.Tail.Idle
import TableTail.Tail.Mark

/-!
# Partitions

The reading state of a table that is read identity by identity. Partitions have slots, numbered in
the order in which they were added; a slot never moves, so a poll can walk the slots while others
are added behind them. An index leads from an identity to its slot.
-/

namespace TableTail

/-- How far a partition has been read: rows above `after` are still to come, and when it is
`unread` the row at `after` too. -/
structure Progress where
  after : Mark
  unread : Bool
  idle : Option Idle
  deriving DecidableEq, Repr

/-- One identity of a table: the text that names it, the cell that selects its rows, and how far
it has been read. -/
structure Partition where
  identity : String
  param : Sql.Cell
  progress : Progress
  deriving Repr, BEq

/-- The tracked partitions of a table. -/
structure Partitions where
  slots : List Partition
  index : Named Nat
  deriving Repr

namespace Partitions

/-- No partitions. -/
def empty : Partitions := ⟨[], []⟩

/-- The number of partitions. -/
def size (ps : Partitions) : Nat := ps.slots.length

/-- Whether an identity is tracked. -/
def has (ps : Partitions) (identity : String) : Bool := Named.has identity ps.index

/-- The partitions with one more behind them, unless its identity is already tracked. -/
def insert (ps : Partitions) (p : Partition) : Partitions :=
  if ps.has p.identity then ps
  else ⟨ps.slots ++ [p], Named.set p.identity ps.size ps.index⟩

/-- The partition in a slot. -/
def slot? (ps : Partitions) (i : Nat) : Option Partition := ps.slots[i]?

/-- The partition of an identity. -/
def get? (ps : Partitions) (identity : String) : Option Partition :=
  (Named.get? identity ps.index).bind ps.slot?

/-- The partitions with the progress of a slot changed. -/
def changeSlot (ps : Partitions) (i : Nat) (f : Progress → Progress) : Partitions :=
  { ps with slots := ps.slots.modify i fun p => { p with progress := f p.progress } }

/-- The partitions with the progress of an identity changed. -/
def change (ps : Partitions) (identity : String) (f : Progress → Progress) : Partitions :=
  match Named.get? identity ps.index with
  | some i => ps.changeSlot i f
  | none => ps

/-- How far each identity has been read. -/
def positions (ps : Partitions) : Named Mark :=
  Named.ofPairs (ps.slots.map fun p => (p.identity, p.progress.after))

/-- The identities whose position has not been read itself, in order. -/
def unread (ps : Partitions) : List String :=
  Named.sortedNames ((ps.slots.filter fun p => p.progress.unread).map (·.identity))

end Partitions

end TableTail
