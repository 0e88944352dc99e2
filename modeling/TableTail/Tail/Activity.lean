import TableTail.Process.Program
import TableTail.Sql.Statement
import TableTail.Tail.Failure

/-!
# Activities

The programs of the tailer, by the actions they are made of: questions to the database, checkpoint
files, deliveries, the clock, and steps on the cursors. A cursor is read and changed in one action,
so programs that run side by side never see one half changed; whole reads and rollbacks of a table
exclude each other by entering it and leaving it again.
-/

namespace TableTail

/-- A sink that does not take records. -/
inductive SinkError
  | refused (records : Nat)
  | closed
  deriving DecidableEq, Repr

/-- The wording of a refusal. -/
def SinkError.message : SinkError → String
  | .refused records => "sink rejected " ++ Text.natText records ++ " records"
  | .closed => "Record channel closed"

/-- What a program of the tailer asks for. -/
inductive Action
  /-- The live columns of a table, nothing when there is no such table. -/
  | describe (table : String)
  /-- The rows that a query selects. -/
  | query (q : Sql.Query)
  /-- The content of a checkpoint's file, nothing when there is no file. -/
  | load (location : Location)
  /-- Replaces the content of a checkpoint's file. -/
  | save (location : Location) (contents : String)
  /-- Changes the cursor of a table and answers what it was before. -/
  | exchange (table : String) (change : Cursor → Cursor)
  /-- Waits until no other program is inside a table, and enters it. -/
  | enter (table : String)
  /-- Leaves a table. -/
  | leave (table : String)
  /-- Hands records to the sink. -/
  | emit (records : List Record)
  /-- The time in milliseconds. -/
  | clock

/-- What an action answers. -/
def Action.Answer : Action → Type
  | describe _ => Except DatabaseError (Option (List Sql.Column))
  | query _ => Except DatabaseError (List Sql.Row)
  | load _ => Except FileError (Option String)
  | save _ _ => Except FileError Unit
  | exchange _ _ => Cursor
  | enter _ => Unit
  | leave _ => Unit
  | emit _ => Except SinkError Unit
  | clock => Nat

/-- A program of the tailer. -/
abbrev Activity (α : Type) : Type := Program Action Action.Answer α

namespace Activity

/-- The live columns of a table. -/
def describe (table : String) : Activity (Except DatabaseError (Option (List Sql.Column))) :=
  .ask (.describe table) .done

/-- The rows that a query selects. -/
def query (q : Sql.Query) : Activity (Except DatabaseError (List Sql.Row)) :=
  .ask (.query q) .done

/-- The content of a checkpoint's file. -/
def load (location : Location) : Activity (Except FileError (Option String)) :=
  .ask (.load location) .done

/-- Replaces the content of a checkpoint's file. -/
def save (location : Location) (contents : String) : Activity (Except FileError Unit) :=
  .ask (.save location contents) .done

/-- Changes the cursor of a table and answers what it was before. -/
def exchange (table : String) (change : Cursor → Cursor) : Activity Cursor :=
  .ask (.exchange table change) .done

/-- The cursor of a table. -/
def look (table : String) : Activity Cursor := exchange table id

/-- A program inside a table, which no other one is in at the same time. -/
def inside {α : Type} (table : String) (p : Activity α) : Activity α := do
  .ask (.enter table) .done
  let a ← p
  .ask (.leave table) .done
  return a

/-- Hands records to the sink. -/
def emit (records : List Record) : Activity (Except SinkError Unit) :=
  .ask (.emit records) .done

/-- The time in milliseconds. -/
def clock : Activity Nat := .ask .clock .done

end Activity

end TableTail
