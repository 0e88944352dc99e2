import TableTail.Process.Retry
import TableTail.Tables.Registry

/-!
# Polling one table

A batch is read and handed to the sink, again and again when the sink refuses it. A batch that
stays refused is rolled back, so that its rows are read again. What an interrupted read got before
its failure is delivered too, because the cursor has moved past it.
-/

namespace TableTail

/-- Why a table's poll fails. -/
inductive PollFault
  | extraction (table : String) (cause : DatabaseError)
  | undelivered (records : Nat) (aliasName : String)
  deriving DecidableEq, Repr

/-- The wording of a poll's failure. -/
def PollFault.message : PollFault → String
  | .extraction table _ => "Extraction failed on table '" ++ table ++ "'"
  | .undelivered records aliasName =>
    "Failed to deliver " ++ Text.natText records ++ " records from '" ++ aliasName ++
      "'; cursor rolled back"

/-- A poll that succeeded: the number of records delivered, and whether more are likely to wait. -/
structure Polled where
  records : Nat
  filled : Bool
  deriving DecidableEq, Repr

namespace Reader

/-- The first pause between two attempts to deliver. -/
def firstDeliveryDelay : Nat := 1000

/-- The longest pause between two attempts to deliver. -/
def longestDeliveryDelay : Nat := 10000

/-- Delivers the records of a batch and answers their number, or rolls the batch back. -/
def deliver (r : Reader) (retries : Nat) (b : Batch) : Activity (Except PollFault Nat) :=
  if b.records.isEmpty then return .ok 0
  else do
    match ← Program.retry (Activity.emit b.records) longestDeliveryDelay retries
        firstDeliveryDelay with
    | .ok () => return .ok b.records.length
    | .error _ =>
      r.rollback b
      return .error (.undelivered b.records.length r.aliasName)

/-- Reads a batch and delivers it. -/
def poll (r : Reader) (p : PollerSettings) : Activity (Except PollFault Polled) := do
  let now ← Activity.clock
  match ← r.read p.batchSize now with
  | .ok b =>
    match ← r.deliver p.deliveryRetries b with
    | .ok records => return .ok ⟨records, b.filled⟩
    | .error fault => return .error fault
  | .error interruption =>
    match ← r.deliver p.deliveryRetries interruption.batch with
    | .ok _ => return .error (.extraction r.name interruption.cause)
    | .error fault => return .error fault

end Reader

end TableTail
