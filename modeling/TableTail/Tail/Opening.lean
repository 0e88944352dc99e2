import TableTail.Checkpoint.Reconciliation
import TableTail.Checkpoint.Store
import TableTail.Tables.Source
import TableTail.Tail.Identity

/-!
# Opening a table

Where reading starts is worked out from the configuration, the checkpoint and the identities in the
database. When a checkpoint cannot be read, reading starts where it is configured to; one that can be
read but makes no sense is an error.
-/

namespace TableTail

namespace Opening

/-- The mark that a configured text denotes. -/
def readStart (table : String) (kind : MarkKind) (place : StartPlace) (text : String) :
    Except Failure Mark :=
  match Mark.read kind text with
  | .ok m => .ok m
  | .error e => .error (.config (.start table place e))

/-- The marks that configured texts denote, up to the first one that denotes none. -/
def readStarts (table : String) (kind : MarkKind) : Named String → Except Failure (Named Mark)
  | [] => .ok []
  | (identity, text) :: rest =>
    match readStart table kind (.identity identity) text with
    | .error e => .error e
    | .ok m =>
      match readStarts table kind rest with
      | .error e => .error e
      | .ok marks => .ok ((identity, m) :: marks)

/-- The mark that is configured for all of a table. -/
def readDefault (table : String) (kind : MarkKind) : Option String → Except Failure (Option Mark)
  | none => .ok none
  | some text => (readStart table kind .byDefault text).map some

/-- The identities in the rows of a minimum query, with their cells; the last cell counts. -/
def identitiesOf (rows : List Sql.Row) : Named Sql.Cell :=
  Named.ofPairs (rows.filterMap identityOf?)

/-- Known identities together with others, whose cells are made from their texts. -/
def addIdentities (c : Sql.Column) (known : Named Sql.Cell) (others : List String) :
    Named Sql.Cell :=
  others.foldl (fun m identity =>
    if Named.has identity m then m else Named.set identity (identityCell c identity) m) known

/-- Whether the configuration admits an identity. -/
def admits (c : CursorSettings) (identity : String) : Bool :=
  (c.includes.isEmpty || c.includes.contains identity) && !c.excludes.contains identity

/-- What is known about the starts of a table's partitions. -/
structure Starts where
  kind : MarkKind
  byDefault : Option Mark
  configured : Named Mark
  persisted : Named Mark
  unread : List String

/-- A partition at its start. A persisted mark whose row is unread stays so, unless the
configuration has moved past it. -/
def Starts.partition (s : Starts) (identity : String) (param : Sql.Cell) : Partition :=
  let persisted := Named.get? identity s.persisted
  let after := Mark.partitionStart s.kind s.byDefault (Named.get? identity s.configured) persisted
  ⟨identity, param,
    ⟨after, s.unread.contains identity && persisted.any fun m => m.same after, none⟩⟩

/-- The partitions of the admitted identities. -/
def partitions (c : CursorSettings) (s : Starts) (known : Named Sql.Cell) : Partitions :=
  ((known.filter fun k => admits c k.1).map fun k => s.partition k.1 k.2).foldl
    Partitions.insert Partitions.empty

/-- The marks and the unread identities of a checkpoint of a table with partitions. -/
def persistedPartitions : Option Checkpoint → Named Mark × List String
  | some (.partitioned positions unread) => (positions, unread)
  | _ => ([], [])

/-- The mark of a checkpoint of a table with one mark. -/
def persistedSingle : Option Checkpoint → Option Mark
  | some (.single m) => some m
  | _ => none

/-- A loaded checkpoint, none if it cannot be read. -/
def usable : Except Failure (Option Checkpoint) → Except Failure (Option Checkpoint)
  | .error (.persistence _ _ _) => .ok none
  | loaded => loaded

/-- The cursor of a table with partitions. -/
def partitionedCursor (r : Reader) (identity : Sql.Column) (byDefault : Option Mark)
    (checkpoint : Option Checkpoint) : Activity (Except Failure Cursor) := do
  let c := r.descriptor.cursor
  match readStarts r.name r.kind c.starts with
  | .error e => return .error e
  | .ok configured =>
    let (persisted, unread) := persistedPartitions checkpoint
    let answer ←
      match r.descriptor.minimumQuery r.selection identity with
      | some q => Activity.query q
      | none => pure (.ok [])
    match answer with
    | .error e => return .error (.database e)
    | .ok rows =>
      let known := addIdentities identity (identitiesOf rows)
        (Named.names configured ++ Named.names persisted ++ c.includes)
      return .ok (.partitioned
        (partitions c ⟨r.kind, byDefault, configured, persisted, unread⟩ known))

/-- The cursor of a table, before anything is read. -/
def initialCursor (root : String) (r : Reader) : Activity (Except Failure Cursor) := do
  match readDefault r.name r.kind r.descriptor.cursor.defaultStart with
  | .error e => return .error e
  | .ok byDefault =>
    let loaded ← Checkpoint.load root r.catalog r.name r.kind r.isPartitioned
    match usable loaded with
    | .error e => return .error e
    | .ok checkpoint =>
      match r.selection.identity with
      | none =>
        return .ok (.single (Mark.singleStart r.kind byDefault (persistedSingle checkpoint)) none)
      | some identity => partitionedCursor r identity byDefault checkpoint

/-- The reader of a described table with a live schema. -/
def readerOf (source : Source) (d : Descriptor) (s : Schema) (idlePolicy : IdlePolicy) :
    Except SchemaFault Reader :=
  match Selection.of d s source.dialect (source.tableRef d.name) with
  | .error fault => .error fault
  | .ok selection =>
    match MarkKind.ofColumn? selection.increment.kind with
    | none => .error .noCursorKind
    | some kind => .ok ⟨d, s, selection, source.catalog, kind, idlePolicy⟩

end Opening

/-- Opens a described table with a live schema. -/
def Reader.open (root : String) (source : Source) (d : Descriptor) (s : Schema)
    (idlePolicy : IdlePolicy) : Activity (Except Failure (Reader × Cursor)) := do
  match Opening.readerOf source d s idlePolicy with
  | .error fault => return .error (.schema d.name fault)
  | .ok r =>
    match ← Opening.initialCursor root r with
    | .error e => return .error e
    | .ok cursor => return .ok (r, cursor)

end TableTail
