import TableTail.Delivery.Service
import TableTail.Files.Replacement
import TableTail.Stored.Database

/-!
# Rehearsals

Surroundings of the tailer that are held in memory: a database that is stored, or one whose answers
are written down beforehand; a tree of checkpoint files; a sink whose verdicts are decided
beforehand; and a log of what was asked and delivered when. Everything the tailer does can be
rehearsed here, without a database and without waiting.
-/

namespace TableTail

/-- Where the database's answers come from. A script knows the schemas of its tables; the rows it
answers are the next responses. A stored database answers by itself, and responses only make its
queries fail. -/
inductive Backend
  | script (schemas : Named (Except DatabaseError (List Sql.Column)))
  | stored (database : Database)

/-- What is written down of an action. -/
inductive Entry
  | described (table : String)
  | queried (q : Sql.Query)
  | emitted (records : List Record) (accepted : Bool)

/-- Surroundings held in memory. The log is in reverse order. -/
structure Rehearsal where
  registry : Registry
  backend : Backend
  responses : List (Except DatabaseError (List Sql.Row))
  files : FileTree
  verdicts : List Bool
  emits : Nat
  stopAfter : Option Nat
  stopAt : Option Nat
  time : Nat
  log : List (Nat × Entry)

namespace Rehearsal

/-- The rehearsal with one more line in its log. -/
def note (w : Rehearsal) (e : Entry) : Rehearsal := { w with log := (w.time, e) :: w.log }

/-- The next response, and the rehearsal without it. -/
def nextResponse (w : Rehearsal) : Option (Except DatabaseError (List Sql.Row)) × Rehearsal :=
  (w.responses.head?, { w with responses := w.responses.tail })

/-- The live columns of a table. -/
def describe (w : Rehearsal) (table : String) :
    Except DatabaseError (Option (List Sql.Column)) :=
  match w.backend with
  | .script schemas =>
    match Named.get? table schemas with
    | some (.ok columns) => .ok (some columns)
    | some (.error e) => .error e
    | none => .ok none
  | .stored db => .ok (db.describe table)

/-- The rows of a query, given the response that is next. -/
def rowsOf (w : Rehearsal) (q : Sql.Query) (response : Option (Except DatabaseError (List Sql.Row))) :
    Except DatabaseError (List Sql.Row) :=
  match w.backend, response with
  | .script _, some r => r
  | .script _, none => .ok []
  | .stored _, some (.error e) => .error e
  | .stored db, _ =>
    match db.select q with
    | some rows => .ok rows
    | none => .error .refused

/-- The longest path, in bytes. -/
def maxPath : Nat := 4095

/-- The reason for which the system does not even look for a path. -/
def pathFault (l : Location) : Option FileError :=
  if l.text.toList.contains '\x00' then some .nulInName
  else if maxPath < l.text.utf8ByteSize then some .nameTooLong
  else none

/-- The content of a checkpoint's file, nothing when there is no such file. -/
def load (t : FileTree) (l : Location) : Except FileError (Option String) :=
  match pathFault l with
  | some e => .error e
  | none =>
    match t.readText (Path.ofText l.text) with
    | .ok s => .ok (some s)
    | .error .notFound => .ok none
    | .error e => .error e

/-- Replaces the content of a checkpoint's file. -/
def save (t : FileTree) (l : Location) (contents : String) : Except FileError Unit × FileTree :=
  match pathFault l with
  | some e => (.error e, t)
  | none => t.replaceText (Path.ofText l.directoryText) l.file contents

/-- The verdict of the sink on some records. -/
def deliver (w : Rehearsal) (records : List Record) : Except SinkError Unit × Rehearsal :=
  let accepted := w.verdicts.head?.getD true
  let emits := w.emits + 1
  let stopAt := if w.stopAfter = some emits then some (w.stopAt.elim w.time (min w.time)) else w.stopAt
  (if accepted then .ok () else .error (.refused records.length),
    { w.note (.emitted records accepted) with
      verdicts := w.verdicts.tail
      emits := emits
      stopAt := stopAt })

/-- Answers an action. The clock of the idle gate stands still. -/
def answer : (a : Action) → Rehearsal → a.Answer × Rehearsal
  | .describe table, w => (w.describe table, w.note (.described table))
  | .query q, w =>
    let (response, w') := w.nextResponse
    (w.rowsOf q response, w'.note (.queried q))
  | .load l, w => (load w.files l, w)
  | .save l contents, w =>
    let (result, files) := save w.files l contents
    (result, { w with files := files })
  | .exchange table change, w =>
    (w.registry.cursorOf table, { w with registry := w.registry.changeCursor table change })
  | .enter _, w => ((), w)
  | .leave _, w => ((), w)
  | .emit records, w => w.deliver records
  | .clock, w => ((0 : Nat), w)

/-- Performs a program; its pauses take no time. -/
def perform {α : Type} (p : Activity α) (w : Rehearsal) : α × Rehearsal :=
  p.run answer (fun _ w => w) w

/-- The rehearsal as the surroundings of a service. -/
def surroundings : Surroundings Rehearsal :=
  ⟨answer, fun now w => { w with time := now }, fun w => w.stopAt⟩

end Rehearsal

end TableTail
