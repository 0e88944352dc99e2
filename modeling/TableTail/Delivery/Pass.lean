import TableTail.Delivery.Poll
import TableTail.Process.Pool

/-!
# Passes

A pass polls every open table once, some of them side by side. Its statistics do not depend on the
order in which the polls end, but for the order of the errors.
-/

namespace TableTail

/-- The poll of a table in a pass, with the name under which the table is delivered. -/
structure TablePoll where
  aliasName : String
  outcome : Except PollFault Polled

/-- What a pass did. -/
structure PassStats where
  tables : Nat
  records : Nat
  filled : Bool
  errors : List String
  deriving DecidableEq, Repr

namespace PassStats

/-- A pass over no tables. -/
def empty : PassStats := ⟨0, 0, false, []⟩

/-- The statistics with one more poll. -/
def add (s : PassStats) (p : TablePoll) : PassStats :=
  match p.outcome with
  | .ok polled =>
    { s with
      tables := s.tables + 1
      records := s.records + polled.records
      filled := s.filled || polled.filled }
  | .error fault =>
    { s with
      tables := s.tables + 1
      errors := s.errors ++ ["Failed to poll '" ++ p.aliasName ++ "': " ++ fault.message] }

/-- The statistics of the polls of a pass, in the order in which they ended. -/
def ofPolls (polls : List TablePoll) : PassStats := polls.foldl add empty

/-- Whether no poll failed. -/
def isSuccess (s : PassStats) : Bool := s.errors.isEmpty

end PassStats

namespace Pass

/-- The polls of a pass, not yet started. -/
def programs (readers : List Reader) (p : PollerSettings) : List (Activity TablePoll) :=
  readers.map fun r => do
    let outcome ← r.poll p
    return ⟨r.aliasName, outcome⟩

/-- A pass at its start. -/
def start (readers : List Reader) (p : PollerSettings) (now : Nat) :
    Pool Action Action.Answer TablePoll :=
  Pool.fill now (Pool.start p.parallelism (programs readers p))

/-- A number of turns that is enough for a pass: a poll pauses once for each retry. -/
def turns (readers : List Reader) (p : PollerSettings) : Nat :=
  readers.length * (p.deliveryRetries + 1)

end Pass

end TableTail
