import TableTail.Proofs.Tail.Units

/-!
# Updates of a cursor

A cursor changes by complete updates only (`Update`): a unit that was scanned moves or becomes idle,
the moves of a batch are undone, or discovered identities are added. No update takes a slot from its
identity (`Update.prefix_places`), and none breaks the index (`Update.wellFormed`).

Identities are added behind the slots that there are. So it does not matter whether they are added
before or after one of these slots is moved (`Cursor.adopt_moveSlot`).
-/

namespace TableTail

/-- A complete update of a cursor. -/
inductive Update
  | scannedWhole (last : Option Mark) (now : Nat)
  | scanned (slot : Nat) (last : Option Mark) (now : Nat)
  | undone (b : Batch)
  | discovered (kind : MarkKind) (rows : List Sql.Row)

/-- A cursor after an update. -/
def Update.apply : Update → Cursor → Cursor
  | scannedWhole last now => Reader.moveSingle last now
  | scanned slot last now => Reader.moveSlot slot last now
  | undone b => Cursor.undoAll b
  | discovered kind rows => Cursor.adopt kind rows

namespace Partitions

variable {ps : Partitions}

/-- Which identity each slot has, and by which cell its rows are selected. -/
def places (ps : Partitions) : List (String × Sql.Cell) :=
  ps.slots.map fun p => (p.identity, p.param)

/-- Changing the progress of a slot leaves all slots to their identities. -/
@[simp] lemma places_changeSlot (ps : Partitions) (i : Nat) (f : Progress → Progress) :
    (ps.changeSlot i f).places = ps.places := by
  refine List.ext_getElem? fun j => ?_
  simp only [places, changeSlot, List.getElem?_map, List.getElem?_modify]
  cases ps.slots[j]? with
  | none => rfl
  | some p => by_cases hij : i = j <;> simp [hij]

/-- Changing the progress of an identity leaves all slots to their identities. -/
@[simp] lemma places_change (ps : Partitions) (identity : String) (f : Progress → Progress) :
    (ps.change identity f).places = ps.places := by
  unfold change
  split
  · exact places_changeSlot ps _ f
  · rfl

/-- Changing the progress of a slot leaves the number of slots. -/
@[simp] lemma size_changeSlot (ps : Partitions) (i : Nat) (f : Progress → Progress) :
    (ps.changeSlot i f).size = ps.size := by
  rw [size, changeSlot, List.length_modify, size]

/-- A slot may be moved before or after a partition is added behind it. -/
lemma insert_changeSlot {i : Nat} (hi : i < ps.size) (f : Progress → Progress) (p : Partition) :
    (ps.changeSlot i f).insert p = (ps.insert p).changeSlot i f := by
  have hhas : (ps.changeSlot i f).has p.identity = ps.has p.identity := rfl
  have hslots : (ps.slots ++ [p]).modify i (fun p => { p with progress := f p.progress }) =
      ps.slots.modify i (fun p => { p with progress := f p.progress }) ++ [p] := by
    refine List.ext_getElem? fun j => ?_
    rw [List.getElem?_modify, List.getElem?_append, List.getElem?_append, List.length_modify,
      List.getElem?_modify]
    by_cases hj : j < ps.slots.length
    · simp [hj]
    · have hne : i ≠ j := (hi.trans_le (not_lt.1 hj)).ne
      simp [hj, hne]
  unfold insert
  rw [hhas]
  split
  · rfl
  · rw [size_changeSlot, changeSlot, changeSlot, hslots]

/-- Adding partitions does not make the slots fewer. -/
lemma size_le_foldl_insert (ps : Partitions) (l : List Partition) :
    ps.size ≤ (l.foldl insert ps).size := by
  obtain ⟨added, -, hslots⟩ := slots_foldl_insert ps l
  simp [size, hslots]

/-- Identities are added behind the slots that there are. -/
lemma prefix_slots_adopt (ps : Partitions) (kind : MarkKind) (rows : List Sql.Row) :
    ps.slots <+: (ps.adopt kind rows).slots := by
  obtain ⟨added, -, hslots⟩ := ps.slots_foldl_insert (rows.filterMap (Partition.ofMinimum? kind))
  exact ⟨added, hslots.symm⟩

/-- A slot may be moved before or after partitions are added behind it. -/
lemma foldl_insert_changeSlot {i : Nat} (hi : i < ps.size) (f : Progress → Progress)
    (l : List Partition) :
    l.foldl insert (ps.changeSlot i f) = (l.foldl insert ps).changeSlot i f := by
  induction l generalizing ps with
  | nil => rfl
  | cons p rest ih =>
    have hi' : i < (ps.insert p).size := hi.trans_le (size_le_foldl_insert ps [p])
    rw [List.foldl_cons, List.foldl_cons, insert_changeSlot hi, ih hi']

end Partitions

namespace Cursor

variable {c : Cursor} {kind : MarkKind} {rows : List Sql.Row} {i : Nat}

/-- Adding identities does not make the slots fewer. -/
lemma size_le_adopt (c : Cursor) (kind : MarkKind) (rows : List Sql.Row) :
    c.partitions.size ≤ (c.adopt kind rows).partitions.size := by
  cases c with
  | single after idle => exact le_rfl
  | partitioned ps => exact ps.size_le_foldl_insert _

/-- Adding identities leaves the slots that there are. -/
lemma slot?_adopt (hi : i < c.partitions.size) :
    (c.adopt kind rows).partitions.slot? i = c.partitions.slot? i := by
  cases c with
  | single after idle => rfl
  | partitioned ps =>
    obtain ⟨added, hslots⟩ := ps.prefix_slots_adopt kind rows
    have hadopted : (ps.adopt kind rows).slots[i]? = ps.slots[i]? := by
      rw [← hslots]
      exact List.getElem?_append_left hi
    exact hadopted

/-- Moving a slot leaves the number of slots. -/
@[simp] lemma size_moveSlot (slot : Nat) (last : Option Mark) (now : Nat) (c : Cursor) :
    (Reader.moveSlot slot last now c).partitions.size = c.partitions.size := by
  cases c with
  | single after idle => rfl
  | partitioned ps => exact ps.size_changeSlot _ _

/-- Moving a single mark leaves the number of slots. -/
@[simp] lemma size_moveSingle (last : Option Mark) (now : Nat) (c : Cursor) :
    (Reader.moveSingle last now c).partitions.size = c.partitions.size := by
  cases c with
  | single after idle => cases last <;> rfl
  | partitioned ps => rfl

/-- A slot may be moved before or after identities are added. -/
theorem adopt_moveSlot (hi : i < c.partitions.size) (last : Option Mark) (now : Nat) :
    Reader.moveSlot i last now (c.adopt kind rows) =
      (Reader.moveSlot i last now c).adopt kind rows := by
  cases c with
  | single after idle => rfl
  | partitioned ps =>
    have hmoved := Partitions.foldl_insert_changeSlot hi (Reader.moveProgress last now)
      (rows.filterMap (Partition.ofMinimum? kind))
    exact congrArg Cursor.partitioned hmoved.symm

/-- A single mark may be moved before or after identities are added. -/
theorem adopt_moveSingle (last : Option Mark) (now : Nat) :
    Reader.moveSingle last now (c.adopt kind rows) =
      (Reader.moveSingle last now c).adopt kind rows := by
  cases c with
  | single after idle => cases last <;> rfl
  | partitioned ps => rfl

/-- Undoing a move leaves all slots to their identities. -/
@[simp] lemma places_undo (a : Advance) (c : Cursor) :
    (c.undo a).partitions.places = c.partitions.places := by
  cases c with
  | single after idle =>
    rw [undo]
    split <;> rfl
  | partitioned ps =>
    rw [undo]
    cases a.unit with
    | none => rfl
    | some identity => exact ps.places_change identity _

/-- Undoing the moves of a batch leaves all slots to their identities. -/
@[simp] lemma places_undoAll (b : Batch) (c : Cursor) :
    (c.undoAll b).partitions.places = c.partitions.places := by
  unfold undoAll
  induction b.advances.reverse generalizing c with
  | nil => rfl
  | cons a rest ih => rw [List.foldl_cons, ih, places_undo]

/-- Adding identities leaves the slots that there are to theirs. -/
lemma prefix_places_adopt (c : Cursor) (kind : MarkKind) (rows : List Sql.Row) :
    c.partitions.places <+: (c.adopt kind rows).partitions.places := by
  cases c with
  | single after idle => exact List.prefix_refl _
  | partitioned ps => exact (ps.prefix_slots_adopt kind rows).map _

end Cursor

namespace Update

variable {c : Cursor}

/-- An update leaves each slot to its identity. -/
theorem prefix_places (u : Update) (c : Cursor) :
    c.partitions.places <+: (u.apply c).partitions.places := by
  cases u with
  | scannedWhole last now =>
    have hsame : (Reader.moveSingle last now c).partitions.places = c.partitions.places := by
      cases c with
      | single after idle => cases last <;> rfl
      | partitioned ps => rfl
    rw [apply, hsame]
  | scanned slot last now =>
    have hsame : (Reader.moveSlot slot last now c).partitions.places = c.partitions.places := by
      cases c with
      | single after idle => rfl
      | partitioned ps => exact ps.places_changeSlot _ _
    rw [apply, hsame]
  | undone b => rw [apply, Cursor.places_undoAll]
  | discovered kind rows => exact c.prefix_places_adopt kind rows

/-- An update keeps the index right. -/
theorem wellFormed (h : c.WellFormed) (u : Update) : (u.apply c).WellFormed := by
  cases u with
  | scannedWhole last now => exact h.moveSingle last now
  | scanned slot last now => exact h.moveSlot slot last now
  | undone b => exact h.undoAll b
  | discovered kind rows => exact h.adopt kind rows

end Update

end TableTail
