import TableTail.Settings.Table

/-!
# Settings

The whole configuration: where rows come from, the pace of polling, and the tables. Settings that
have passed their checks have positive sizes, intervals no shorter than the floors below, and
tables with different aliases.
-/

namespace TableTail

/-- Where rows are read from. -/
structure SourceSettings where
  url : String
  schema : String
  poolSize : Nat
  allowSelfSigned : Bool
  deriving DecidableEq, Repr

/-- The source at an address, with all else by default. -/
def SourceSettings.ofUrl (url : String) : SourceSettings := ⟨url, "public", 4, false⟩

/-- The pace of polling and delivery; times are in milliseconds. -/
structure PollerSettings where
  batchSize : Nat
  pollInterval : Nat
  flushInterval : Nat
  discoverInterval : Nat
  idleInterval : Nat
  idleMax : Nat
  checkpointDir : Option String
  parallelism : Nat
  deliveryRetries : Nat
  deriving DecidableEq, Repr

namespace PollerSettings

/-- The shortest time between two checkpoint flushes. -/
def minFlushInterval : Nat := 3000

/-- The shortest time between two partition discoveries. -/
def minDiscoverInterval : Nat := 300000

/-- The settings where a configuration says nothing. -/
def standard : PollerSettings :=
  ⟨100, 1000, minFlushInterval, minDiscoverInterval, 60000, 3600000, none, 1, 5⟩

/-- The settings with the background intervals raised to their floors. -/
def raised (p : PollerSettings) : PollerSettings :=
  { p with
    flushInterval := max p.flushInterval minFlushInterval
    discoverInterval := max p.discoverInterval minDiscoverInterval }

/-- The directory of the checkpoints: the configured one, or a hidden one in the home directory. -/
def checkpointRoot (p : PollerSettings) (home : String) : String :=
  p.checkpointDir.getD (home ++ "/.database-tailer")

end PollerSettings

/-- A configuration. -/
structure Settings where
  source : SourceSettings
  poller : PollerSettings
  allowedTables : Option (List String)
  tables : List TableSettings
  deriving DecidableEq, Repr

/-- What is wrong with a configuration. -/
inductive SettingsFault
  | zeroBatch
  | zeroParallelism
  | table (name : String) (fault : TableFault)
  | repeatedAlias (aliasName : String)
  deriving DecidableEq, Repr

/-- The wording of a configuration's fault. -/
def SettingsFault.message : SettingsFault → String
  | .zeroBatch => "poller.batch_size must be greater than 0"
  | .zeroParallelism => "poller.parallelism must be greater than 0"
  | .table name fault => "invalid configuration: table '" ++ name ++ "': " ++ fault.message
  | .repeatedAlias aliasName => "Alias '" ++ aliasName ++ "' is used by more than one table"

namespace Settings

/-- The first fault of a list of tables, each compared with the aliases before it. -/
def tablesFault : (aliases : List String) → List TableSettings → Option SettingsFault
  | _, [] => none
  | aliases, t :: rest =>
    match t.fault? with
    | some fault => some (.table t.name fault)
    | none =>
      if aliases.contains t.aliasOrName then some (.repeatedAlias t.aliasOrName)
      else tablesFault (t.aliasOrName :: aliases) rest

/-- The first fault of a configuration. -/
def fault? (s : Settings) : Option SettingsFault :=
  if s.poller.batchSize = 0 then some .zeroBatch
  else if s.poller.parallelism = 0 then some .zeroParallelism
  else tablesFault [] s.tables

/-- The checked configuration, with its intervals raised to their floors. -/
def checked (s : Settings) : Except SettingsFault Settings :=
  match s.fault? with
  | some fault => .error fault
  | none => .ok { s with poller := s.poller.raised }

/-- The names and aliases under which tables may be looked up, in order; none means all. -/
def allowList (s : Settings) : List String :=
  Named.sortedNames (match s.allowedTables with
    | some names => names
    | none => s.tables.flatMap fun t => [t.name, t.aliasOrName])

end Settings

end TableTail
