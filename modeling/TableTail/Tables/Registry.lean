import TableTail.Tail.Discovery
import TableTail.Tail.Opening
import TableTail.Tail.Rollback

/-!
# The registry

The open tables, by their own names, with an index from the names under which they are delivered. A
table is looked up, and registered, only when the allow-list names it; an empty list names all.
-/

namespace TableTail

/-- An open table: its reader, and how far it has been read. -/
structure Tracked where
  reader : Reader
  cursor : Cursor
  deriving Repr

/-- The open tables and what is needed to open more. -/
structure Registry where
  source : Source
  root : String
  poller : PollerSettings
  allowed : List String
  schemas : Named Schema
  tables : Named Tracked
  aliases : Named String
  deriving Repr

namespace Registry

/-- A registry without tables. -/
def empty (source : Source) (root : String) (poller : PollerSettings) (allowed : List String) :
    Registry :=
  ⟨source, root, poller, allowed, [], [], []⟩

/-- The refusal of a name that is not in the allow-list. -/
def accessFault? (reg : Registry) (name : String) : Option AccessFault :=
  if reg.allowed.isEmpty || reg.allowed.contains name then none else some (.table name)

/-- The table that is delivered under a name. -/
def ofAlias? (reg : Registry) (aliasName : String) : Option Tracked :=
  (Named.get? aliasName reg.aliases).bind fun name => Named.get? name reg.tables

/-- Looks up a table by the name under which it is delivered. -/
def byAlias (reg : Registry) (aliasName : String) : Except Failure (Option Tracked) :=
  match reg.accessFault? aliasName with
  | some fault => .error (.access fault)
  | none => .ok (reg.ofAlias? aliasName)

/-- Looks up a table by its own name. -/
def byName (reg : Registry) (name : String) : Except Failure (Option Tracked) :=
  match reg.accessFault? name with
  | some fault => .error (.access fault)
  | none => .ok (Named.get? name reg.tables)

/-- The readers of the open tables, in the order of the tables' names. -/
def readers (reg : Registry) : List Reader := (Named.values reg.tables).map (·.reader)

/-- The cursor of an open table. -/
def cursorOf (reg : Registry) (name : String) : Cursor :=
  match Named.get? name reg.tables with
  | some t => t.cursor
  | none => default

/-- The registry with the cursor of a table changed. -/
def changeCursor (reg : Registry) (name : String) (f : Cursor → Cursor) : Registry :=
  { reg with tables := Named.change name (fun t => { t with cursor := f t.cursor }) reg.tables }

/-- The failure of a description that does not fit its schema. -/
def misfitFailure (table : String) : Misfit → Failure
  | .schema fault => .schema table fault
  | .access fault => .access fault

/-- The live schema of a described table. It is asked for once and kept when the description fits
it. -/
def resolve (reg : Registry) (d : Descriptor) : Activity (Except Failure Schema × Registry) := do
  let found ←
    match Named.get? d.name reg.schemas with
    | some cached => pure (Except.ok cached)
    | none =>
      match ← Activity.describe d.name with
      | .error e => pure (Except.error (Failure.database e))
      | .ok none => pure (Except.error (Failure.schema d.name (.noTable reg.source.catalog)))
      | .ok (some columns) => pure (Except.ok ⟨d.name, columns⟩)
  match found with
  | .error e => return (.error e, reg)
  | .ok schema =>
    match d.misfit? schema with
    | some misfit => return (.error (misfitFailure d.name misfit), reg)
    | none => return (.ok schema, { reg with schemas := Named.set d.name schema reg.schemas })

/-- The registry with one more open table. -/
def add (reg : Registry) (t : Tracked) : Registry :=
  { reg with
    aliases := Named.set t.reader.aliasName t.reader.name reg.aliases
    tables := Named.set t.reader.name t reg.tables }

/-- Opens a described table and adds it. -/
def enroll (reg : Registry) (d : Descriptor) (idlePolicy : IdlePolicy) :
    Activity (Except Failure Tracked × Registry) := do
  match ← reg.resolve d with
  | (.error e, reg) => return (.error e, reg)
  | (.ok schema, reg) =>
    match ← Reader.open reg.root reg.source d schema idlePolicy with
    | .error e => return (.error e, reg)
    | .ok (reader, cursor) =>
      let t : Tracked := ⟨reader, cursor⟩
      return (.ok t, reg.add t)

/-- Registers a table. A name for delivery that is already in use answers the table that has it. -/
def register (reg : Registry) (t : TableSettings) :
    Activity (Except Failure Tracked × Registry) :=
  match reg.accessFault? t.aliasOrName <|> reg.accessFault? t.name with
  | some fault => return (.error (.access fault), reg)
  | none =>
    match reg.ofAlias? t.aliasOrName with
    | some tracked => return (.ok tracked, reg)
    | none =>
      if Named.has t.name reg.tables then
        return (.error (.config (.otherAlias t.name)), reg)
      else
        match Descriptor.ofSettings t with
        | .error fault => return (.error (.config (.table t.name fault)), reg)
        | .ok d => reg.enroll d (t.idlePolicy reg.poller.idleInterval reg.poller.idleMax)

/-- Registers the tables of a list, and answers the failures by the tables' names. -/
def registerAll : Registry → List TableSettings → Activity (List (String × Failure) × Registry)
  | reg, [] => return ([], reg)
  | reg, t :: rest => do
    let (result, reg) ← reg.register t
    let (failures, reg) ← registerAll reg rest
    match result with
    | .ok _ => return (failures, reg)
    | .error e => return ((t.name, e) :: failures, reg)

/-- The registry of a configuration's tables, and the failures of those that are not in it. -/
def ofSettings (source : Source) (root : String) (s : Settings) :
    Activity (List (String × Failure) × Registry) :=
  registerAll (empty source root s.poller s.allowList) s.tables

/-- Writes the checkpoint of each of some tables and answers how many of them failed. -/
def flush (root : String) : List Reader → Activity Nat
  | [] => return 0
  | r :: rest => do
    let cursor ← Activity.look r.name
    let saved ← Checkpoint.save root r.catalog r.name cursor.checkpoint
    let failed ← flush root rest
    match saved with
    | .ok () => return failed
    | .error _ => return failed + 1

/-- Discovers the new partitions of each of some tables and answers how many there were; a table
that fails adds none. -/
def discoverAll : List Reader → Activity Nat
  | [] => return 0
  | r :: rest => do
    let found ← r.discover
    let others ← discoverAll rest
    match found with
    | .ok n => return n + others
    | .error _ => return others

end Registry

end TableTail
