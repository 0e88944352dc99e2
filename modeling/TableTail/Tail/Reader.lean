import TableTail.Tables.Selection
import TableTail.Tail.Activity

/-!
# Reading a table

A reader is what stays the same about an open table: its description, its statements and the kind
of its marks. A read asks each unit of the table that is due for the rows past its mark and moves
the mark to the last row's increment. It walks the slots that there were when it began; the cursor
moves after each answer, so an interrupted read keeps what it got before.
-/

namespace TableTail

/-- An open table, without the state of its cursor. -/
structure Reader where
  descriptor : Descriptor
  schema : Schema
  selection : Selection
  catalog : String
  kind : MarkKind
  idlePolicy : IdlePolicy
  deriving Repr

namespace Reader

/-- The table's own name. -/
def name (r : Reader) : String := r.descriptor.name

/-- The name under which its records are delivered. -/
def aliasName (r : Reader) : String := r.descriptor.aliasName

/-- Whether the table is read identity by identity. -/
def isPartitioned (r : Reader) : Bool := r.selection.identity.isSome

/-- The label of the increment column in results. -/
def incrementLabel (r : Reader) : String := r.descriptor.labelOf r.descriptor.cursor.increment

/-- The mark in a row of a scan. -/
def markOf? (r : Reader) (row : Sql.Row) : Option Mark :=
  (row.get? r.incrementLabel).bind (Mark.ofCell? r.kind)

/-- The error of a row without a mark. -/
def unreadable (r : Reader) : DatabaseError :=
  .conversion ("table '" ++ r.name ++ "': cannot read increment column '" ++ r.incrementLabel ++
    "' from row")

/-- The records of rows. -/
def records (r : Reader) (rows : List Sql.Row) : List Record :=
  rows.map (Record.ofRow r.aliasName)

/-- The rows that a scan selects, and the mark of the last one. -/
def scanned (r : Reader) (answer : Except DatabaseError (List Sql.Row)) :
    Except DatabaseError (List Sql.Row × Option Mark) :=
  match answer with
  | .error e => .error e
  | .ok rows =>
    match rows.getLast? with
    | none => .ok (rows, none)
    | some row =>
      match r.markOf? row with
      | some m => .ok (rows, some m)
      | none => .error r.unreadable

/-- A single cursor after a scan. -/
def moveSingle (last : Option Mark) (now : Nat) : Cursor → Cursor
  | .single after idle =>
    match last with
    | some m => .single m none
    | none => .single after (Idle.afterEmpty idle now)
  | cursor => cursor

/-- The progress of a partition after a scan. -/
def moveProgress (last : Option Mark) (now : Nat) (p : Progress) : Progress :=
  match last with
  | some m => ⟨m, false, none⟩
  | none => { p with idle := Idle.afterEmpty p.idle now }

/-- A partitioned cursor after a scan of a slot. -/
def moveSlot (slot : Nat) (last : Option Mark) (now : Nat) : Cursor → Cursor
  | .partitioned ps => .partitioned (ps.changeSlot slot (moveProgress last now))
  | cursor => cursor

/-- Reads the rows past a single mark. -/
def readSingle (r : Reader) (limit now : Nat) : Activity (Except Interruption Batch) := do
  match ← Activity.look r.name with
  | .partitioned _ => return .ok Batch.empty
  | .single after idle =>
    if Idle.due idle r.idlePolicy now then
      match r.scanned (← Activity.query (r.selection.singleScan after.toCell limit)) with
      | .error e => return .error ⟨Batch.empty.asked, e⟩
      | .ok (rows, last) =>
        let _ ← Activity.exchange r.name (moveSingle last now)
        return .ok (Batch.empty.asked.add (r.records rows)
          (last.map fun m => ⟨none, after, false, m⟩) (limit ≤ rows.length))
    else return .ok Batch.empty

/-- Reads a number of slots from a given one on, in their order, behind a batch read before. -/
def readSlots (r : Reader) (limit now : Nat) :
    (count slot : Nat) → Batch → Activity (Except Interruption Batch)
  | 0, _, batch => return .ok batch
  | count + 1, slot, batch => do
    match (← Activity.look r.name).partitions.slot? slot with
    | none => readSlots r limit now count (slot + 1) batch
    | some ⟨identity, param, progress⟩ =>
      if Idle.due progress.idle r.idlePolicy now then
        match r.scanned (← Activity.query
          (r.selection.partitionScan param progress.after.toCell progress.unread limit)) with
        | .error e => return .error ⟨batch.asked, e⟩
        | .ok (rows, last) =>
          let _ ← Activity.exchange r.name (moveSlot slot last now)
          readSlots r limit now count (slot + 1) (batch.asked.add (r.records rows)
            (last.map fun m => ⟨some identity, progress.after, progress.unread, m⟩)
            (limit ≤ rows.length))
      else readSlots r limit now count (slot + 1) batch

/-- Reads the rows past the marks of all partitions. -/
def readPartitions (r : Reader) (limit now : Nat) : Activity (Except Interruption Batch) := do
  let cursor ← Activity.look r.name
  r.readSlots limit now cursor.partitions.size 0 Batch.empty

/-- Reads the next rows of a table, at most `limit` for each unit. -/
def read (r : Reader) (limit now : Nat) : Activity (Except Interruption Batch) :=
  Activity.inside r.name
    (if r.isPartitioned then r.readPartitions (max limit 1) now
      else r.readSingle (max limit 1) now)

end Reader

end TableTail
