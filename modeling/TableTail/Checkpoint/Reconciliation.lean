import TableTail.Tail.Mark

/-!
# Where reading starts

A start can be configured and it can be persisted. A table with one mark starts at the earlier of
the two, so that nothing unread is passed over; a partition starts at the most advanced.
-/

namespace TableTail.Mark

/-- Where a table with one mark starts. -/
def singleStart (kind : MarkKind) : (configured persisted : Option Mark) → Mark
  | some a, some b => a.earlier b
  | some a, none => a
  | none, some b => b
  | none, none => zero kind

/-- The latest of some marks. -/
def latest : List Mark → Option Mark
  | [] => none
  | m :: rest => some (rest.foldl later m)

/-- Where a partition starts. -/
def partitionStart (kind : MarkKind) (defaultStart identityStart persisted : Option Mark) : Mark :=
  (latest (defaultStart.toList ++ identityStart.toList ++ persisted.toList)).getD (zero kind)

end TableTail.Mark
