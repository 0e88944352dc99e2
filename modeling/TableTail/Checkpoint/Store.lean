import TableTail.Tail.Activity

/-!
# Loading and saving checkpoints

A missing file is no checkpoint; a file that cannot be read is told apart from one that can be read
but holds no checkpoint.
-/

namespace TableTail.Checkpoint

/-- The checkpoint of a table, if it has one. -/
def load (root catalog table : String) (kind : MarkKind) (partitioned : Bool) :
    Activity (Except Failure (Option Checkpoint)) := do
  let location := Location.of root catalog table
  match ← Activity.load location with
  | .error e => return .error (.persistence table location e)
  | .ok none => return .ok none
  | .ok (some contents) =>
    match decode kind partitioned contents with
    | .ok checkpoint => return .ok (some checkpoint)
    | .error e => return .error (.corrupt table location e)

/-- Writes the checkpoint of a table. -/
def save (root catalog table : String) (checkpoint : Checkpoint) :
    Activity (Except Failure Unit) := do
  let location := Location.of root catalog table
  match ← Activity.save location checkpoint.encode with
  | .error e => return .error (.persistence table location e)
  | .ok () => return .ok ()

end TableTail.Checkpoint
