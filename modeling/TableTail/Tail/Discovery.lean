import TableTail.Tail.Identity

/-!
# Partition discovery

Identities that are in the database but not tracked yet are added behind the tracked ones. Each
starts at its least increment, whose own row is still unread; the checkpoint keeps that, so that a
restart before the first read does not lose the row.
-/

namespace TableTail

/-- The partition that a row of a minimum query gives rise to. -/
def Partition.ofMinimum? (kind : MarkKind) (row : Sql.Row) : Option Partition := do
  let (identity, param) ← identityOf? row
  let minimum ← (row.get? Selection.minimumLabel).bind (Mark.ofCell? kind)
  return ⟨identity, param, ⟨minimum, true, none⟩⟩

/-- The partitions with those of some rows behind them. -/
def Partitions.adopt (kind : MarkKind) (rows : List Sql.Row) (ps : Partitions) : Partitions :=
  (rows.filterMap (Partition.ofMinimum? kind)).foldl insert ps

/-- A cursor with the partitions of some rows behind its own. -/
def Cursor.adopt (kind : MarkKind) (rows : List Sql.Row) : Cursor → Cursor
  | .single after idle => .single after idle
  | .partitioned ps => .partitioned (ps.adopt kind rows)

namespace Reader

/-- Adds the identities that the database has and the cursor does not track, and answers how many
they are. -/
def discover (r : Reader) : Activity (Except Failure Nat) :=
  match r.selection.identity with
  | none => return .ok 0
  | some identity =>
    if r.descriptor.cursor.discover then
      match r.descriptor.minimumQuery r.selection identity with
      | none => return .ok 0
      | some q => do
        match ← Activity.query q with
        | .error e => return .error (.database e)
        | .ok rows =>
          let before ← Activity.exchange r.name (Cursor.adopt r.kind rows)
          return .ok ((before.adopt r.kind rows).partitions.size - before.partitions.size)
    else return .ok 0

end Reader

end TableTail
