import TableTail.Command.Connection
import TableTail.Settings.Decoding
import TableTail.Tables.Registry
import TableTail.Toml.Reading

/-!
# Reports

The commands that only report: where each table's checkpoint is and what it says, and whether each
table can be opened. A report is the text that is printed, and the reason for which the command
fails, if it does.
-/

namespace TableTail

/-- Why a text is no configuration. -/
inductive SettingsTextFault
  | unreadable
  | fault (fault : SettingsFault)
  deriving DecidableEq, Repr

/-- The wording of a text that is no configuration. -/
def SettingsTextFault.message : SettingsTextFault → String
  | .unreadable => "Failed to parse TOML configuration"
  | .fault f => f.message

/-- The checked configuration in a text. -/
def Settings.ofText (text : String) : Except SettingsTextFault Settings :=
  match (Toml.read? text).bind Settings.ofJson? with
  | none => .error .unreadable
  | some s =>
    match s.checked with
    | .error fault => .error (.fault fault)
    | .ok s => .ok s

namespace Command

/-- What a command prints, and why it fails. -/
structure Report where
  printed : String
  failure : Option String
  deriving DecidableEq, Repr

/-- Why a command does not get to its work. -/
inductive StartFault
  | noConfig (path : String)
  | badConfig (path : String)
  | noDatabase
  | noTable
  deriving DecidableEq, Repr

/-- A path as a quoted text. -/
def quotedPath (path : String) : String :=
  "\"" ++ String.ofList (path.toList.flatMap fun c =>
    if c = '"' ∨ c = '\\' then ['\\', c] else [c]) ++ "\""

/-- The wording of a command that does not get to its work. -/
def StartFault.message : StartFault → String
  | .noConfig path => "Failed to read config file " ++ quotedPath path
  | .badConfig path => "Invalid config file " ++ quotedPath path
  | .noDatabase => "Failed to open source database"
  | .noTable => "No table could be registered; nothing to poll"

/-- A command that prints nothing and fails. -/
def Report.failed (fault : StartFault) : Report := ⟨"", some fault.message⟩

/-- The configuration at a path, given its content if the file can be read. -/
def loadSettings (path : String) (content : Option String) : Except StartFault Settings :=
  match content with
  | none => .error (.noConfig path)
  | some text =>
    match Settings.ofText text with
    | .ok s => .ok s
    | .error _ => .error (.badConfig path)

/-- The content of a checkpoint's file in a report. -/
def contentText : Except FileError (Option String) → String
  | .ok (some contents) => contents
  | .ok none => "<none>"
  | .error e => "<unreadable: " ++ e.message ++ ">"

/-- One line for each table: its name, the path of its checkpoint, and what the file says. -/
def positionLines (root catalog : String) : List TableSettings → Activity String
  | [] => return ""
  | t :: rest => do
    let location := Location.of root catalog t.name
    let content ← Activity.load location
    let lines ← positionLines root catalog rest
    return t.name ++ "\t" ++ location.text ++ "\t" ++ contentText content ++ "\n" ++ lines

/-- Reports all checkpoints, without a connection. -/
def positions (home : String) (s : Settings) : Activity Report := do
  let root := s.poller.checkpointRoot home
  let lines ← positionLines root (catalogHint s.source.url) s.tables
  return ⟨"Checkpoint root: " ++ root ++ "\n" ++ lines, none⟩

/-- The line of a table that can be opened. -/
def passedLine (r : Reader) : String :=
  "  OK    " ++ r.name ++ " (alias '" ++ r.aliasName ++ "', increment '" ++
    r.descriptor.cursor.increment ++ "', " ++
    (match r.descriptor.cursor.identity with
      | some identity => "partitioned by '" ++ identity ++ "'"
      | none => "single cursor") ++ ")\n"

/-- The line of a table that cannot be opened. -/
def failedLine (table : String) (failure : Failure) : String :=
  "  FAIL  " ++ table ++ ": " ++ failure.message ++ "\n"

/-- A ruler. -/
def ruler : String := String.ofList (List.replicate 40 '=') ++ "\n"

/-- Reports for each table whether it can be opened. -/
def check (home : String) (source : Source) (s : Settings) : Activity Report := do
  let (failures, registry) ← Registry.ofSettings source (s.poller.checkpointRoot home) s
  let printed := "\n" ++ ruler ++ "Table check\n" ++ ruler ++
    String.join (registry.readers.map passedLine) ++
    String.join (failures.map fun (table, failure) => failedLine table failure) ++ "\n"
  return ⟨printed,
    if failures.isEmpty then none
    else some (Text.natText failures.length ++ " of " ++ Text.natText s.tables.length ++
      " tables failed validation")⟩

/-- Whether the tables of a configuration can be polled: at least one must have been opened. -/
def startPolling (home : String) (source : Source) (s : Settings) :
    Activity (Except StartFault Registry) := do
  let (_, registry) ← Registry.ofSettings source (s.poller.checkpointRoot home) s
  return if registry.tables.isEmpty then .error .noTable else .ok registry

end Command

end TableTail
