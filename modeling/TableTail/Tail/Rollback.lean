import TableTail.Tail.Reader

/-!
# Rollback

The moves of a batch that could not be delivered are undone, the last one first. A unit is put back
only while it still is where the batch moved it to.
-/

namespace TableTail

/-- A progress with a move undone. -/
def Progress.undo (a : Advance) (p : Progress) : Progress :=
  if p.after.same a.after then { p with after := a.before, unread := a.wasUnread } else p

/-- A cursor with a move undone. -/
def Cursor.undo (a : Advance) : Cursor → Cursor
  | .single after idle =>
    if a.unit.isNone && after.same a.after then .single a.before idle else .single after idle
  | .partitioned ps =>
    match a.unit with
    | some identity => .partitioned (ps.change identity (Progress.undo a))
    | none => .partitioned ps

/-- A cursor with the moves of a batch undone. -/
def Cursor.undoAll (b : Batch) (c : Cursor) : Cursor := b.advances.reverse.foldl (fun c a => c.undo a) c

/-- Undoes the moves of a batch. -/
def Reader.rollback (r : Reader) (b : Batch) : Activity Unit :=
  Activity.inside r.name do
    let _ ← Activity.exchange r.name (Cursor.undoAll b)

end TableTail
