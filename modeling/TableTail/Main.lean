import TableTail.Command.Arguments
import TableTail.Command.Reports
import TableTail.Files.Replacement

/-!
# The command line

The program itself: it reads its arguments and the configuration, carries activities out on the
real files, prints the report and answers an exit code. No database is linked to it, so a command
that needs one ends when it would connect.
-/

namespace TableTail.Console

/-- A failure of the system as a file error. -/
def fileError : IO.Error → FileError
  | .noFileOrDirectory _ _ _ => .notFound
  | .inappropriateType _ 20 _ => .notADirectory
  | .inappropriateType _ 21 _ => .isADirectory
  | .alreadyExists _ _ _ => .alreadyExists
  | e => .other (toString e)

/-- Does something with files. -/
def attempt {α : Type} (act : IO α) : IO (Except FileError α) := do
  match ← act.toBaseIO with
  | .ok a => return .ok a
  | .error e => return .error (fileError e)

/-- The text of a file. -/
def readText (path : String) : IO (Except FileError String) := do
  match ← attempt (IO.FS.readBinFile path) with
  | .ok bytes => return FileTree.textOfBytes bytes.toList
  | .error e => return .error e

/-- The content of a checkpoint's file, nothing when there is no such file. -/
def load (l : Location) : IO (Except FileError (Option String)) := do
  match ← readText l.text with
  | .ok text => return .ok (some text)
  | .error .notFound => return .ok none
  | .error e => return .error e

/-- A path as a text that begins at the top. -/
def fullText (p : Path) : String := "/" ++ p.text

/-- A temporary file with a name that is not in use. -/
def createTemporary (directory : Path) : IO Path := do
  let file := directory ++ [".tmp" ++ Text.natText (← IO.rand 0 999999999)]
  let _ ← IO.FS.Handle.mk (fullText file) .writeNew
  return file

/-- Adds bytes to a file. -/
def append (file : Path) (bytes : List UInt8) : IO Nat := do
  let handle ← IO.FS.Handle.mk (fullText file) .append
  handle.write (ByteArray.mk bytes.toArray)
  handle.flush
  return bytes.length

/-- Takes a step on the real files. -/
def step : (s : FileStep) → IO s.Answer
  | .makeDirectories d => attempt (IO.FS.createDirAll (fullText d))
  | .createTemporary d => attempt (createTemporary d)
  | .write p bytes => attempt (append p bytes)
  | .sync _ => return Except.ok ()
  | .rename a b => attempt (IO.FS.rename (fullText a) (fullText b))
  | .remove p => attempt (IO.FS.removeFile (fullText p))

/-- Replaces the content of a checkpoint's file. -/
def save (l : Location) (contents : String) : IO (Except FileError Unit) := do
  let here := (← IO.currentDir).toString
  let directory := if l.root.startsWith "/" then l.directoryText else Path.join here l.directoryText
  (FileProgram.replace (Path.ofText directory) l.file (FileTree.bytesOfText contents)).carryOut step
    fun ms => IO.sleep ms.toUInt32

/-- What every question to a database is answered with. -/
def noDatabase : DatabaseError := .worker "no database is linked"

/-- Carries an action out, with the registry in a cell. -/
def answer (registry : IO.Ref Registry) : (a : Action) → IO a.Answer
  | .describe _ => return Except.error noDatabase
  | .query _ => return Except.error noDatabase
  | .load l => load l
  | .save l contents => save l contents
  | .exchange table change => registry.modifyGet fun r => (r.cursorOf table, r.changeCursor table change)
  | .enter _ => return ()
  | .leave _ => return ()
  | .emit records => do
    IO.print (Record.lines records)
    return Except.ok ()
  | .clock => do
    let now ← IO.monoMsNow
    return now

/-- Carries an activity out. -/
def perform {α : Type} (p : Activity α) : IO α := do
  let registry ← IO.mkRef (Registry.empty ⟨.sqlite, "main", "public"⟩ "." PollerSettings.standard [])
  p.carryOut (answer registry) fun ms => IO.sleep ms.toUInt32

/-- The report of a command. -/
def report (i : Command.Invocation) : IO Command.Report := do
  let home := (← IO.getEnv "HOME").getD "."
  match Command.loadSettings i.config (← readText i.config).toOption with
  | .error fault => return .failed fault
  | .ok s =>
    match i.verb with
    | .positions => perform (Command.positions home s)
    | .check => return .failed .noDatabase
    | .run => return .failed .noDatabase

/-- How the program is used. -/
def usage : String :=
  "Tail new rows from relational tables into a JSON record stream\n\n" ++
  "Usage: database-tailer [--log <LEVEL>] <run|check|positions> --config <FILE>\n"

/-- The wording of arguments that are no invocation. -/
def argumentText : Command.ArgumentError → String
  | .missingOption => "the following required arguments were not provided: --config <CONFIG>"
  | .missingCommand => "a command is required"
  | .nothingGiven => "a command is required"
  | .unknownCommand => "unrecognized command"
  | .unknownArgument => "unexpected argument"
  | .badValue => "a value is required"
  | .unwantedValue => "unexpected value"
  | .repeatedOption => "an argument cannot be used multiple times"
  | .help => ""
  | .version => ""

/-- Shows what arguments ask to be shown, or what is wrong with them. -/
def explain (e : Command.ArgumentError) : IO UInt32 := do
  match e with
  | .help => IO.print usage; return 0
  | .version => IO.println "database-tailer 0.3.0"; return 0
  | e => IO.eprint ("error: " ++ argumentText e ++ "\n\n" ++ usage); return 2

/-- Does what the arguments ask for. -/
def start (args : List String) : IO UInt32 := do
  match Command.readArguments (← IO.getEnv "DATABASE_TAILER_CONFIG") ("database-tailer" :: args) with
  | .error e => explain e
  | .ok i =>
    let r ← report i
    IO.print r.printed
    match r.failure with
    | none => return 0
    | some message =>
      IO.eprintln ("Error: " ++ message)
      return 1

end TableTail.Console

/-- The program. -/
def main (args : List String) : IO UInt32 := TableTail.Console.start args
