import Mathlib.Data.List.Basic
import Mathlib.Data.List.Nodup
import TableTail.Proofs.Tail.UnitRows
import TableTail.Tail.Discovery
import TableTail.Tail.Rollback

/-!
# The units of a cursor

A single mark and the slots of partitions are seen in one way: as the list of the units that a
table is read by (`Cursor.units`). What reading, rolling back and discovering do to a cursor is
told here once, in terms of this list: a scan changes one unit (`units_moveSlot`), undoing a move
changes the unit of that name (`units_undo`), and new identities come behind the units that there
were (`units_adopt`).

For undoing by name the index of the partitions has to agree with their slots
(`Partitions.WellFormed`); every change of a cursor keeps this.
-/

namespace TableTail

/-- What one scan reads, and how far it has got: the whole table, or the rows of an identity. -/
structure TableUnit where
  name : Option String
  key : Option Sql.Cell
  progress : Progress

namespace TableUnit

/-- Which unit it is: its name, and the key of its rows. -/
def place (u : TableUnit) : Option String × Option Sql.Cell := (u.name, u.key)

/-- How far a unit has been read. -/
def boundary (u : TableUnit) : Boundary := u.progress.boundary

/-- A unit after a scan whose last row has the given mark, if it answered any. -/
def turn (last : Option Mark) (now : Nat) (u : TableUnit) : TableUnit :=
  { u with progress := Reader.moveProgress last now u.progress }

/-- A unit with a move undone, if the move was its own. -/
def undo (a : Advance) (u : TableUnit) : TableUnit :=
  if u.name = a.unit then { u with progress := u.progress.undo a } else u

@[simp] lemma boundary_after (u : TableUnit) : u.boundary.after = u.progress.after := rfl

@[simp] lemma boundary_unread (u : TableUnit) : u.boundary.unread = u.progress.unread := rfl

@[simp] lemma turn_place (last : Option Mark) (now : Nat) (u : TableUnit) :
    (u.turn last now).place = u.place := rfl

@[simp] lemma turn_key (last : Option Mark) (now : Nat) (u : TableUnit) :
    (u.turn last now).key = u.key := rfl

@[simp] lemma undo_name (a : Advance) (u : TableUnit) : (u.undo a).name = u.name := by
  unfold undo
  split <;> rfl

@[simp] lemma undo_place (a : Advance) (u : TableUnit) : (u.undo a).place = u.place := by
  unfold undo
  split <;> rfl

/-- A scan moves the boundary behind its last row. -/
lemma turn_boundary (r : Reader) (page : List Sql.Row) (now : Nat) (u : TableUnit) :
    (u.turn (r.lastMark? page) now).boundary = r.afterPage u.boundary page := by
  unfold turn Reader.afterPage Reader.moveProgress
  cases r.lastMark? page <;> rfl

/-- Undoing a unit's move to where it is puts it back to where it was. -/
lemma undo_self (o : Boundary) (u : TableUnit) :
    (u.undo ⟨u.name, o.after, o.unread, u.boundary.after⟩).boundary = o := by
  simp [undo, Progress.undo, boundary, Progress.boundary]

/-- Undoing moves none of which changes the unit changes nothing. -/
lemma foldl_undo_fixed {l : List Advance} {u : TableUnit} (h : ∀ a ∈ l, u.undo a = u) :
    l.foldl (fun u a => u.undo a) u = u := by
  induction l with
  | nil => rfl
  | cons a rest ih =>
    rw [List.foldl_cons, h a (by simp)]
    exact ih fun a' ha' => h a' (by simp [ha'])

/-- Undoing other units' moves changes nothing. -/
lemma foldl_undo_of_ne {l : List Advance} {u : TableUnit} (h : ∀ a ∈ l, u.name ≠ a.unit) :
    l.foldl (fun u a => u.undo a) u = u :=
  foldl_undo_fixed fun a ha => if_neg (h a ha)

/-- Undoing moves does not change which unit it is. -/
@[simp] lemma foldl_undo_place (l : List Advance) (u : TableUnit) :
    (l.foldl (fun u a => u.undo a) u).place = u.place := by
  induction l generalizing u with
  | nil => rfl
  | cons a rest ih => rw [List.foldl_cons, ih, undo_place]

end TableUnit

/-- The unit of a partition. -/
def Partition.unit (p : Partition) : TableUnit := ⟨some p.identity, some p.param, p.progress⟩

namespace Cursor

/-- The units of a cursor, in the order in which they are read. -/
def units : Cursor → List TableUnit
  | single after idle => [⟨none, none, ⟨after, false, idle⟩⟩]
  | partitioned ps => ps.slots.map Partition.unit

/-- How far each unit has been read. -/
def boundaries (c : Cursor) : List Boundary := c.units.map (·.boundary)

end Cursor

namespace Partitions

/-- The index leads from each identity to its slot, and nowhere else. -/
structure WellFormed (ps : Partitions) : Prop where
  indexed : ∀ identity i, Named.get? identity ps.index = some i ↔
    (ps.slots[i]?).map (·.identity) = some identity

/-- No partitions are well-formed. -/
lemma WellFormed.empty : empty.WellFormed := ⟨fun _ _ => by simp [Partitions.empty]⟩

variable {ps : Partitions}

/-- Two slots do not have the same identity. -/
lemma WellFormed.nodup (h : ps.WellFormed) : (ps.slots.map (·.identity)).Nodup := by
  refine List.nodup_iff_injective_get.2 fun i j hij => Fin.ext ?_
  have hget : ∀ k : Fin (ps.slots.map (·.identity)).length,
      Named.get? ((ps.slots.map (·.identity)).get k) ps.index = some k.val := by
    intro k
    rw [h.indexed, ← List.getElem?_map, List.get_eq_getElem, ← List.getElem?_eq_getElem]
  have hi := hget i
  rw [hij, hget j] at hi
  exact (Option.some.inj hi).symm

/-- The partitions with the one in a slot changed. -/
def editSlot (ps : Partitions) (i : Nat) (f : Partition → Partition) : Partitions :=
  { ps with slots := ps.slots.modify i f }

/-- A change that leaves the identity of the slot keeps the index right. -/
lemma WellFormed.editSlot (h : ps.WellFormed) {i : Nat} {f : Partition → Partition}
    (hf : ∀ p, ps.slot? i = some p → (f p).identity = p.identity) :
    (ps.editSlot i f).WellFormed := by
  refine ⟨fun identity j => (h.indexed identity j).trans ?_⟩
  have hsame : ((ps.editSlot i f).slots[j]?).map (·.identity) =
      (ps.slots[j]?).map (·.identity) := by
    simp only [Partitions.editSlot, List.getElem?_modify]
    cases hj : ps.slots[j]? with
    | none => simp
    | some p =>
      by_cases hij : i = j
      · subst hij
        simp [hf p hj]
      · simp [hij]
  rw [hsame]

/-- Changing the progress of a slot keeps the index right. -/
lemma WellFormed.changeSlot (h : ps.WellFormed) (i : Nat) (f : Progress → Progress) :
    (ps.changeSlot i f).WellFormed :=
  h.editSlot fun _ _ => rfl

/-- Changing the progress of an identity keeps the index right. -/
lemma WellFormed.change (h : ps.WellFormed) (identity : String) (f : Progress → Progress) :
    (ps.change identity f).WellFormed := by
  unfold Partitions.change
  split
  · exact h.changeSlot _ f
  · exact h

/-- A partition that is added keeps the index right. -/
lemma WellFormed.insert (h : ps.WellFormed) (p : Partition) : (ps.insert p).WellFormed := by
  unfold Partitions.insert
  split
  · exact h
  · next hnew =>
    have hnone : ∀ i, Named.get? p.identity ps.index ≠ some i := by
      simpa [has, Named.has, Option.eq_none_iff_forall_ne_some] using hnew
    refine ⟨fun identity i => ?_⟩
    rw [List.getElem?_append]
    by_cases hid : identity = p.identity
    · subst hid
      rw [Named.get?_set_self, Option.some.injEq]
      split
      · next hi =>
        refine ⟨fun heq => absurd hi (by simp [← heq, size]), fun hat => ?_⟩
        exact absurd ((h.indexed _ _).2 hat) (hnone i)
      · next hi =>
        rcases Nat.eq_or_lt_of_le (Nat.not_lt.1 hi) with heq | hlt
        · simp [size, heq]
        · have hout : ¬ i - ps.slots.length = 0 := by omega
          simp [size, hlt.ne, hout]
    · rw [Named.get?_set_of_ne hid, h.indexed]
      split
      · rfl
      · next hi =>
        rw [List.getElem?_eq_none (Nat.not_lt.1 hi)]
        rcases Nat.eq_zero_or_pos (i - ps.slots.length) with heq | hpos
        · simp [heq, Ne.symm hid]
        · simp [Nat.pos_iff_ne_zero.1 hpos]

/-- Partitions that are added come behind those that there were. -/
lemma slots_foldl_insert (ps : Partitions) (l : List Partition) :
    ∃ added, added.Sublist l ∧ (l.foldl insert ps).slots = ps.slots ++ added := by
  induction l generalizing ps with
  | nil => exact ⟨[], .slnil, by simp⟩
  | cons p rest ih =>
    obtain ⟨added, hsub, hslots⟩ := ih (ps.insert p)
    rw [List.foldl_cons, hslots]
    unfold insert
    split
    · exact ⟨added, hsub.cons _, rfl⟩
    · exact ⟨p :: added, hsub.cons_cons _, by simp⟩

/-- Adding partitions keeps the index right. -/
lemma WellFormed.foldl_insert (h : ps.WellFormed) (l : List Partition) :
    (l.foldl Partitions.insert ps).WellFormed := by
  induction l generalizing ps with
  | nil => exact h
  | cons p rest ih => exact ih (h.insert p)

/-- An identity is tracked where a slot has it. -/
lemma WellFormed.has_iff (h : ps.WellFormed) {identity : String} :
    ps.has identity = true ↔ identity ∈ ps.slots.map (·.identity) := by
  rw [has, Named.has, Option.isSome_iff_exists, List.mem_iff_getElem?]
  simp only [h.indexed, List.getElem?_map]

/-- An identity leads to the slot that has it. -/
lemma WellFormed.get?_eq_some_iff (h : ps.WellFormed) {identity : String} {p : Partition} :
    ps.get? identity = some p ↔ p ∈ ps.slots ∧ p.identity = identity := by
  constructor
  · intro hget
    obtain ⟨i, hi, hslot⟩ := Option.bind_eq_some_iff.1 hget
    have hidentity := (h.indexed identity i).1 hi
    rw [show ps.slots[i]? = some p from hslot] at hidentity
    exact ⟨List.mem_of_getElem? hslot, Option.some.inj hidentity⟩
  · rintro ⟨hp, rfl⟩
    obtain ⟨i, hi⟩ := List.mem_iff_getElem?.1 hp
    exact Option.bind_eq_some_iff.2 ⟨i, (h.indexed _ i).2 (by rw [hi]; rfl), hi⟩

/-- Partitions with new identities are all added. -/
lemma WellFormed.slots_foldl_insert_of_nodup (h : ps.WellFormed) {l : List Partition}
    (hnew : ((ps.slots ++ l).map (·.identity)).Nodup) :
    (l.foldl Partitions.insert ps).slots = ps.slots ++ l := by
  induction l generalizing ps with
  | nil => simp
  | cons p rest ih =>
    have hnot : ps.has p.identity = false := by
      rw [Bool.eq_false_iff, ne_eq, h.has_iff]
      rw [List.map_append, List.nodup_append] at hnew
      exact fun hmem => hnew.2.2 _ hmem _ (by simp) rfl
    have hslots : (ps.insert p).slots = ps.slots ++ [p] := by
      simp [Partitions.insert, hnot]
    have hrest := ih (h.insert p) (by rwa [hslots, List.append_assoc])
    rw [List.foldl_cons, hrest, hslots, List.append_assoc]
    rfl

/-- Changing an identity changes the slot with that identity. -/
lemma WellFormed.slots_change (h : ps.WellFormed) (identity : String) (f : Progress → Progress) :
    (ps.change identity f).slots = ps.slots.map fun p =>
      if p.identity = identity then { p with progress := f p.progress } else p := by
  refine List.ext_getElem? fun j => ?_
  have hindexed := h.indexed identity
  unfold Partitions.change
  rw [List.getElem?_map]
  cases hget : Named.get? identity ps.index with
  | none =>
    cases hj : ps.slots[j]? with
    | none => simp
    | some p =>
      have hne : p.identity ≠ identity := by
        intro heq
        simpa [hget] using (hindexed j).2 (by simp [hj, heq])
      simp [hne]
  | some i =>
    simp only [Partitions.changeSlot, List.getElem?_modify]
    cases hj : ps.slots[j]? with
    | none => simp
    | some p =>
      have hiff : i = j ↔ p.identity = identity := by
        have := hindexed j
        rw [hget, hj] at this
        simpa using this
      by_cases hij : i = j <;> simp [hij, ← hiff]

end Partitions

namespace Cursor

/-- The units of partitions are their slots'. -/
lemma units_getElem?_of_isPartitioned {c : Cursor} (h : c.isPartitioned = true) (i : Nat) :
    c.units[i]? = (c.partitions.slot? i).map Partition.unit := by
  cases c with
  | single after idle => cases h
  | partitioned ps => simp [units, partitions, Partitions.slot?]

/-- Partitions have as many units as slots. -/
lemma length_units_of_isPartitioned {c : Cursor} (h : c.isPartitioned = true) :
    c.units.length = c.partitions.size := by
  cases c with
  | single after idle => cases h
  | partitioned ps => simp [units, partitions, Partitions.size]

/-- A single mark is one unit. -/
lemma length_units_of_not_isPartitioned {c : Cursor} (h : c.isPartitioned = false) :
    c.units.length = 1 := by
  cases c with
  | single after idle => rfl
  | partitioned ps => cases h

/-- Each identity of a cursor leads to its unit. -/
def WellFormed : Cursor → Prop
  | single _ _ => True
  | partitioned ps => ps.WellFormed

variable {c : Cursor}

/-- Two units do not have the same name. -/
lemma WellFormed.nodup (h : c.WellFormed) : (c.units.map (·.name)).Nodup := by
  cases c with
  | single after idle => simp [units]
  | partitioned ps =>
    have hnames : (ps.slots.map Partition.unit).map (·.name) =
        (ps.slots.map (·.identity)).map some := by
      simp [Partition.unit, Function.comp_def]
    rw [units, hnames]
    exact (Partitions.WellFormed.nodup h).map (Option.some_injective _)

section WellFormed

/-- A scan of a single mark keeps the cursor well-formed. -/
lemma WellFormed.moveSingle (h : c.WellFormed) (last : Option Mark) (now : Nat) :
    (Reader.moveSingle last now c).WellFormed := by
  cases c with
  | single after idle => cases last <;> trivial
  | partitioned ps => exact h

/-- A scan of a slot keeps the cursor well-formed. -/
lemma WellFormed.moveSlot (h : c.WellFormed) (i : Nat) (last : Option Mark) (now : Nat) :
    (Reader.moveSlot i last now c).WellFormed := by
  cases c with
  | single after idle => trivial
  | partitioned ps => exact Partitions.WellFormed.changeSlot h i _

/-- Undoing a move keeps the cursor well-formed. -/
lemma WellFormed.undo (h : c.WellFormed) (a : Advance) : (c.undo a).WellFormed := by
  cases c with
  | single after idle =>
    simp only [Cursor.undo]
    split <;> trivial
  | partitioned ps =>
    simp only [Cursor.undo]
    cases a.unit with
    | none => exact h
    | some identity => exact Partitions.WellFormed.change h identity _

/-- Undoing a batch keeps the cursor well-formed. -/
lemma WellFormed.undoAll (h : c.WellFormed) (b : Batch) : (c.undoAll b).WellFormed := by
  unfold Cursor.undoAll
  induction b.advances.reverse generalizing c with
  | nil => exact h
  | cons a rest ih => exact ih (h.undo a)

/-- Adding identities keeps the cursor well-formed. -/
lemma WellFormed.adopt (h : c.WellFormed) (kind : MarkKind) (rows : List Sql.Row) :
    (c.adopt kind rows).WellFormed := by
  cases c with
  | single after idle => trivial
  | partitioned ps => exact Partitions.WellFormed.foldl_insert h _

end WellFormed

/-- A scan of a single mark changes its one unit. -/
lemma units_moveSingle (h : c.isPartitioned = false) (last : Option Mark) (now : Nat) :
    (Reader.moveSingle last now c).units = c.units.modify 0 (TableUnit.turn last now) := by
  cases c with
  | single after idle => cases last <;> rfl
  | partitioned ps => cases h

/-- A scan of a slot changes the slot's unit. -/
lemma units_moveSlot (h : c.isPartitioned = true) (i : Nat) (last : Option Mark) (now : Nat) :
    (Reader.moveSlot i last now c).units = c.units.modify i (TableUnit.turn last now) := by
  cases c with
  | single after idle => cases h
  | partitioned ps =>
    simp only [Reader.moveSlot, Partitions.changeSlot, units]
    refine List.ext_getElem? fun j => ?_
    simp only [List.getElem?_map, List.getElem?_modify]
    cases ps.slots[j]? with
    | none => simp
    | some p => by_cases hij : i = j <;> simp [hij, Partition.unit, TableUnit.turn]

/-- Undoing a move changes the unit of that name. -/
lemma units_undo (hc : c.WellFormed) {a : Advance} (ha : a.unit = none → a.wasUnread = false) :
    (c.undo a).units = c.units.map (TableUnit.undo a) := by
  cases c with
  | single after idle =>
    cases hunit : a.unit with
    | none =>
      have hread : a.wasUnread = false := ha hunit
      by_cases hsame : after.same a.after <;>
        simp [undo, units, TableUnit.undo, Progress.undo, hunit, hread, hsame]
    | some identity => simp [undo, hunit, units, TableUnit.undo]
  | partitioned ps =>
    cases hunit : a.unit with
    | none => simp [undo, hunit, units, TableUnit.undo, Partition.unit, Function.comp_def]
    | some identity =>
      simp only [undo, hunit, units, Partitions.WellFormed.slots_change hc, List.map_map]
      refine List.map_congr_left fun p _ => ?_
      simp only [Function.comp, TableUnit.undo, hunit, Partition.unit, Option.some.injEq]
      split <;> rfl

/-- Undoing some moves undoes each of them in each unit. -/
lemma units_foldl_undo (hc : c.WellFormed) {l : List Advance}
    (hl : ∀ a ∈ l, a.unit = none → a.wasUnread = false) :
    (l.foldl (fun c a => c.undo a) c).units =
      c.units.map fun u => l.foldl (fun u a => u.undo a) u := by
  induction l generalizing c with
  | nil => simp
  | cons a rest ih =>
    have hundo := units_undo hc (hl a (by simp))
    rw [List.foldl_cons, ih (hc.undo a) fun a' ha' => hl a' (by simp [ha']), hundo, List.map_map]
    rfl

/-- Discovered identities come behind the units that there were, each as a row tells it. -/
lemma units_adopt (c : Cursor) (kind : MarkKind) (rows : List Sql.Row) :
    ∃ added, (c.adopt kind rows).units = c.units ++ added ∧
      ∀ u ∈ added, ∃ row ∈ rows, (Partition.ofMinimum? kind row).map Partition.unit = some u := by
  cases c with
  | single after idle => exact ⟨[], by simp [adopt], by simp⟩
  | partitioned ps =>
    obtain ⟨added, hadded, hslots⟩ :=
      Partitions.slots_foldl_insert ps (rows.filterMap (Partition.ofMinimum? kind))
    refine ⟨added.map Partition.unit, by simp [adopt, Partitions.adopt, units, hslots], ?_⟩
    intro u hu
    obtain ⟨p, hp, rfl⟩ := List.mem_map.1 hu
    obtain ⟨row, hrow, hminimum⟩ := List.mem_filterMap.1 (hadded.subset hp)
    exact ⟨row, hrow, by rw [hminimum]; rfl⟩

section Mode

@[simp] lemma isPartitioned_moveSingle (last : Option Mark) (now : Nat) (c : Cursor) :
    (Reader.moveSingle last now c).isPartitioned = c.isPartitioned := by
  cases c <;> cases last <;> rfl

@[simp] lemma isPartitioned_moveSlot (i : Nat) (last : Option Mark) (now : Nat) (c : Cursor) :
    (Reader.moveSlot i last now c).isPartitioned = c.isPartitioned := by
  cases c <;> rfl

@[simp] lemma isPartitioned_undo (a : Advance) (c : Cursor) :
    (c.undo a).isPartitioned = c.isPartitioned := by
  cases c with
  | single after idle =>
    simp only [undo]
    split <;> rfl
  | partitioned ps =>
    simp only [undo]
    cases a.unit <;> rfl

@[simp] lemma isPartitioned_undoAll (b : Batch) (c : Cursor) :
    (c.undoAll b).isPartitioned = c.isPartitioned := by
  unfold undoAll
  induction b.advances.reverse generalizing c with
  | nil => rfl
  | cons a rest ih => simp [ih]

@[simp] lemma isPartitioned_adopt (kind : MarkKind) (rows : List Sql.Row) (c : Cursor) :
    (c.adopt kind rows).isPartitioned = c.isPartitioned := by
  cases c <;> rfl

end Mode

end Cursor

end TableTail
