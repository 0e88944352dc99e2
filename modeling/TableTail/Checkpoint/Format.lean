import TableTail.Json.Reading
import TableTail.Tail.Cursor

/-!
# The format of checkpoints

A table with one mark keeps the mark's text. A table with partitions keeps an object with a mark
for each identity; a mark whose own row has not been read is wrapped in an object under `from`.
-/

namespace TableTail

namespace Checkpoint

/-- The field that wraps an unread mark. -/
def unreadField : String := "from"

/-- The entry of a mark. -/
def entryJson (unread : Bool) (m : Mark) : Json :=
  if unread then .object [(unreadField, m.toJson)] else m.toJson

/-- The content of a checkpoint's file. -/
def encode : Checkpoint → String
  | single m => m.display
  | partitioned positions unread =>
    (Json.object (positions.map fun (identity, m) =>
      (identity, entryJson (unread.contains identity) m))).text

/-- Why the content of a file is no checkpoint. -/
inductive FormatError
  | notObject
  | mark (cause : Mark.ReadError)
  | entry (identity : String) (cause : Mark.ReadError)
  deriving Repr

/-- The wording of a format error. -/
def FormatError.message : FormatError → String
  | .notObject => "invalid JSON"
  | .mark cause => cause.message
  | .entry identity cause => "identity '" ++ identity ++ "': " ++ cause.message

/-- The mark in an entry, and whether it is unread. -/
def readEntry (kind : MarkKind) (entry : Json) : Except Mark.ReadError (Mark × Bool) :=
  match entry.get? unreadField with
  | some wrapped => (Mark.ofJson kind wrapped).map fun m => (m, true)
  | none => (Mark.ofJson kind entry).map fun m => (m, false)

/-- The marks of entries in their order. -/
def readEntries (kind : MarkKind) :
    Named Json → Except FormatError (Named Mark × List String)
  | [] => .ok ([], [])
  | (identity, entry) :: rest =>
    match readEntry kind entry with
    | .error e => .error (.entry identity e)
    | .ok (m, unread) =>
      match readEntries kind rest with
      | .error e => .error e
      | .ok (positions, names) =>
        .ok ((identity, m) :: positions, if unread then identity :: names else names)

/-- The text without one line break at its end. -/
def dropLineEnd (s : String) : String :=
  match s.toList.reverse with
  | '\n' :: rest => String.ofList rest.reverse
  | _ => s

/-- The checkpoint in the content of a file. -/
def decode (kind : MarkKind) (partitioned : Bool) (contents : String) :
    Except FormatError Checkpoint :=
  if partitioned then
    match Json.read? contents with
    | some (.object fields) =>
      (readEntries kind fields).map fun (positions, unread) => .partitioned positions unread
    | _ => .error .notObject
  else
    match Mark.read kind (dropLineEnd contents) with
    | .ok m => .ok (.single m)
    | .error e => .error (.mark e)

end Checkpoint

end TableTail
