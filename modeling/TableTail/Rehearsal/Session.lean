import TableTail.Rehearsal.Basic

/-!
# Sessions

What can be done with a registry in a rehearsal, one step after the other. Times in the log count
from the beginning of a step.
-/

namespace TableTail.Rehearsal

/-- The rehearsal at the beginning of a step, with the responses for it. -/
def beginStep (responses : List (Except DatabaseError (List Sql.Row))) (w : Rehearsal) : Rehearsal :=
  { w with
    responses := responses, verdicts := [], emits := 0, stopAfter := none, stopAt := none,
    time := 0, log := [] }

/-- The log of the step, in order. -/
def entries (w : Rehearsal) : List (Nat × Entry) := w.log.reverse

/-- Opens a registry with the tables of a configuration. -/
def openAll (source : Source) (root : String) (s : Settings) (w : Rehearsal) :
    List (String × Failure) × Rehearsal :=
  let ((failures, registry), w) := w.perform (Registry.ofSettings source root s)
  (failures, { w with registry := registry })

/-- Registers one more table. -/
def register (t : TableSettings) (w : Rehearsal) : Except Failure Tracked × Rehearsal :=
  let ((result, registry), w) := w.perform (w.registry.register t)
  (result, { w with registry := registry })

/-- Looks up a table by its own name. -/
def tracked (table : String) (w : Rehearsal) : Except Failure (Option Tracked) :=
  w.registry.byName table

/-- Reads a batch of a table at a given time. -/
def read (t : Tracked) (limit now : Nat) (w : Rehearsal) : Except Interruption Batch × Rehearsal :=
  w.perform (t.reader.read limit now)

/-- Rolls a batch of a table back. -/
def rollback (t : Tracked) (b : Batch) (w : Rehearsal) : Rehearsal :=
  (w.perform (t.reader.rollback b)).2

/-- Discovers the partitions of all tables. -/
def discoverAll (w : Rehearsal) : Nat × Rehearsal :=
  w.perform (Registry.discoverAll w.registry.readers)

/-- Discovers the partitions of one table. -/
def discover (t : Tracked) (w : Rehearsal) : Except Failure Nat × Rehearsal :=
  w.perform t.reader.discover

/-- Flushes all checkpoints. -/
def flush (w : Rehearsal) : Nat × Rehearsal :=
  w.perform (Registry.flush w.registry.root w.registry.readers)

/-- Loads the checkpoint of a table. -/
def loadCheckpoint (table : String) (kind : MarkKind) (partitioned : Bool) (w : Rehearsal) :
    Except Failure (Option Checkpoint) × Rehearsal :=
  w.perform (Checkpoint.load w.registry.root w.registry.source.catalog table kind partitioned)

/-- The live columns of a table, as its database describes them. -/
def describeTable (table : String) (w : Rehearsal) :
    Except DatabaseError (Option (List Sql.Column)) × Rehearsal :=
  w.perform (Activity.describe table)

/-- A pass over all tables, with the sink's verdicts. -/
def pass (verdicts : List Bool) (w : Rehearsal) : PassStats × Rehearsal :=
  let readers := w.registry.readers
  let poller := w.registry.poller
  let (_, pool, w) := Pool.runFor answer surroundings.setTime (Pass.turns readers poller) 0
    (Pass.start readers poller 0) { w with verdicts := verdicts }
  (PassStats.ofPolls pool.ended, w)

/-- The greatest number of events of a rehearsed service. -/
def maxEvents : Nat := 10000000

/-- The service until a stop is asked for, at a given time or in a given delivery. -/
def runService (verdicts : List Bool) (stopAt stopAfter : Option Nat) (w : Rehearsal) :
    Service.Ending × Rehearsal :=
  Service.run surroundings w.registry.root w.registry.readers w.registry.poller maxEvents
    { w with verdicts := verdicts, stopAt := stopAt, stopAfter := stopAfter }

/-- The rehearsal with another answer, in its script, to what the columns of a table are. -/
def setSchema (table : String) (columns : Except DatabaseError (List Sql.Column))
    (w : Rehearsal) : Rehearsal :=
  match w.backend with
  | .script schemas => { w with backend := .script (Named.set table columns schemas) }
  | .stored _ => w

/-- The rehearsal with its stored database changed. -/
def changeDatabase (f : Database → Database) (w : Rehearsal) : Rehearsal :=
  match w.backend with
  | .script _ => w
  | .stored db => { w with backend := .stored (f db) }

end TableTail.Rehearsal
