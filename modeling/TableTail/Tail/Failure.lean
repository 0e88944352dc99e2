import TableTail.Checkpoint.Format
import TableTail.Checkpoint.Location
import TableTail.Files.Error
import TableTail.Settings.Basic
import TableTail.Tables.Schema
import TableTail.Tail.Batch

/-!
# Failures

Why a table cannot be registered, opened or read. Each failure tells whether the table is
misconfigured or whether the same can be tried again.
-/

namespace TableTail

/-- What a database reports instead of an answer. -/
inductive DatabaseError
  | refused
  | conversion (text : String)
  | worker (text : String)
  deriving DecidableEq, Repr

/-- The wording of a database error. -/
def DatabaseError.message : DatabaseError → String
  | .refused => "sqlite error"
  | .conversion text => "value conversion failed: " ++ text
  | .worker text => "database worker failed: " ++ text

/-- A read that was cut off, with what had been read before. -/
structure Interruption where
  batch : Batch
  cause : DatabaseError
  deriving BEq, Repr

/-- Which configured start a text was to give. -/
inductive StartPlace
  | byDefault
  | identity (name : String)
  deriving DecidableEq, Repr

/-- The wording of a configured start. -/
def StartPlace.message : StartPlace → String
  | .byDefault => "default_start"
  | .identity name => "start for identity '" ++ name ++ "'"

/-- What is wrong with the configuration of a table. -/
inductive ConfigFault
  | table (name : String) (fault : TableFault)
  | start (table : String) (place : StartPlace) (cause : Mark.ReadError)
  | otherAlias (table : String)
  deriving Repr

/-- The wording of a configuration's fault. -/
def ConfigFault.message : ConfigFault → String
  | .table name fault => "table '" ++ name ++ "': " ++ fault.message
  | .start name place cause =>
    "table '" ++ name ++ "': invalid " ++ place.message ++ ": " ++ cause.message
  | .otherAlias name => "table '" ++ name ++ "' is already registered under another alias"

/-- Why something fails for a table. -/
inductive Failure
  | schema (table : String) (fault : SchemaFault)
  | access (fault : AccessFault)
  | extraction (table : String) (interruption : Interruption)
  | persistence (table : String) (location : Location) (cause : FileError)
  | corrupt (table : String) (location : Location) (cause : Checkpoint.FormatError)
  | config (fault : ConfigFault)
  | database (cause : DatabaseError)
  deriving Repr

namespace Failure

/-- The wording of a failure. -/
def message : Failure → String
  | schema table fault => "schema error on table '" ++ table ++ "': " ++ fault.message
  | access fault => "access denied: " ++ fault.message
  | extraction table interruption =>
    "extraction failed on table '" ++ table ++ "' after " ++
      Text.natText interruption.batch.records.length ++ " records"
  | persistence table location _ =>
    "checkpoint I/O failed for table '" ++ table ++ "' at " ++ location.text
  | corrupt table location cause =>
    "corrupt checkpoint for table '" ++ table ++ "' at " ++ location.text ++ ": " ++ cause.message
  | config fault => "invalid configuration: " ++ fault.message
  | database cause => cause.message

/-- Whether the same may succeed later. -/
def isRetryable : Failure → Bool
  | extraction _ _ => true
  | persistence _ _ _ => true
  | _ => false

end Failure

end TableTail
