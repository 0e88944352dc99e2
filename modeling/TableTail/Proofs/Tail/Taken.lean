import TableTail.Proofs.Tail.Pagination

/-!
# What reads take of a unit

Nothing else happens to a table of which all rows can be read than that it is read, at any times and
with any limits, while its rows may change between the reads. Then each unit is read as if it were
the only one (`Reader.Takes.of_unit`): what is taken of it depends on its own rows, on where its
reading begins and on the reads' limits and times. Rows may have equal marks here, of which some may
be passed over.

So units whose rows past their beginnings are the same are read in the same way
(`Reader.taken_congr`), and rows before a beginning are never taken (`Reader.not_mem_taken`).
-/

namespace TableTail

/-- A read of a table: its limit, its time, and the rows that there are. -/
structure Reading where
  limit : Nat
  now : Nat
  content : Option Sql.Cell → List Sql.Row

namespace Scene

variable {r : Reader} {α : Type} {s : Scene}

/-- A program that changes the cursor goes on with what the cursor was. -/
lemma run_exchange (change : Cursor → Cursor) (next : Cursor → Activity α) :
    ((Activity.exchange r.name change).bind next).run (answer r) (fun _ s => s) s =
      (next s.cursor).run (answer r) (fun _ s => s) (s.exchange change) := by
  have hanswer : answer r (.exchange r.name change) s = (s.cursor, s.exchange change) := by
    rw [answer, if_pos rfl]
    rfl
  show (next (answer r (.exchange r.name change) s).1).run (answer r) (fun _ s => s)
    (answer r (.exchange r.name change) s).2 = _
  rw [hanswer]

/-- A program that asks a query goes on with the rows that this selects. -/
lemma run_query (q : Sql.Query) (next : Except DatabaseError (List Sql.Row) → Activity α) :
    ((Activity.query q).bind next).run (answer r) (fun _ s => s) s =
      (next (.ok (r.select s.content q))).run (answer r) (fun _ s => s) s := rfl

end Scene

namespace Reader

variable (r : Reader)

/-- All rows have marks that can be read. -/
def Readable (content : Option Sql.Cell → List Sql.Row) : Prop :=
  ∀ key, ∀ row ∈ content key, (r.markOf? row).isSome = true

/-- The rows that a read takes of a unit. -/
def pageOf (reading : Reading) (u : TableUnit) : List Sql.Row :=
  if u.isDue r reading.now then
    (r.rowsPast u.boundary (reading.content u.key)).take (max reading.limit 1)
  else []

/-- A unit after a read. -/
def afterReading (reading : Reading) (u : TableUnit) : TableUnit :=
  if u.isDue r reading.now then u.turn (r.lastMark? (r.pageOf reading u)) reading.now else u

/-- The rows that reads in a row take of a unit. -/
def taken : List Reading → TableUnit → List Sql.Row
  | [], _ => []
  | reading :: rest, u => r.pageOf reading u ++ taken rest (r.afterReading reading u)

/-- Reads in a row that succeed, and the rows that each of them takes of each unit. -/
inductive Takes : List Reading → Cursor → List Shares → Prop
  | nil (c : Cursor) : Takes [] c []
  | cons {reading : Reading} {rest : List Reading} {c : Cursor} {b : Batch} {s : Scene}
      {pages : List Shares}
      (h : r.readOnce reading.limit reading.now (.opening reading.content c) = (.ok b, s))
      (hrecords : b.records = r.records (c.units.map (r.pageOf reading)).flatten)
      (hrest : Takes rest s.cursor pages) :
      Takes (reading :: rest) c (c.units.map (r.pageOf reading) :: pages)

variable {r} {reading : Reading} {rest : List Reading} {c : Cursor} {u v : TableUnit}

section Units

/-- What a scan answers is taken as it is when its rows can be read. -/
lemma scanned_of_readable {rows : List Sql.Row} (h : ∀ row ∈ rows, (r.markOf? row).isSome = true) :
    r.scanned (.ok rows) = .ok (rows, r.lastMark? rows) := by
  cases hlast : rows.getLast? with
  | none => simp [scanned, lastMark?, hlast]
  | some row =>
    obtain ⟨m, hm⟩ := Option.isSome_iff_exists.1 (h row (List.mem_of_getLast? hlast))
    simp [scanned, lastMark?, hlast, hm]

/-- The rows that are taken of a unit can be read. -/
lemma readable_pageOf (h : r.Readable reading.content) (u : TableUnit) :
    ∀ row ∈ r.pageOf reading u, (r.markOf? row).isSome = true := by
  intro row hrow
  unfold pageOf at hrow
  split at hrow
  · exact h _ row (List.mem_of_mem_filter (List.mem_of_mem_take hrow))
  · cases hrow

/-- A unit keeps its rows when it is read. -/
@[simp] lemma afterReading_key : (r.afterReading reading u).key = u.key := by
  unfold afterReading
  split <;> rfl

/-- What holds in the middle of a read of partitions: the units before a slot are read, and the
batch has their records. -/
structure Walked (r : Reader) (reading : Reading) (begun : List TableUnit) (slot : Nat)
    (b : Batch) (s : Scene) : Prop where
  content : s.content = reading.content
  mode : s.cursor.isPartitioned = true
  units : ∀ i, s.units[i]? =
    (begun[i]?).map fun u => if i < slot then r.afterReading reading u else u
  records : b.records = r.records ((begun.take slot).flatMap (r.pageOf reading))

namespace Walked

variable {begun : List TableUnit} {slot : Nat} {b : Batch} {s : Scene}

/-- A unit whose turn has come is as it was when the read began. -/
lemma getElem?_units (h : r.Walked reading begun slot b s) : s.units[slot]? = begun[slot]? := by
  rw [h.units slot]
  simp

/-- The units that are read are one more. -/
lemma take_succ (hu : begun[slot]? = some u) : begun.take (slot + 1) = begun.take slot ++ [u] := by
  rw [List.take_add_one, hu]
  rfl

/-- A unit that is not due is passed. -/
lemma pass (h : r.Walked reading begun slot b s) (hu : begun[slot]? = some u)
    (hdue : u.isDue r reading.now = false) : r.Walked reading begun (slot + 1) b s := by
  have hpage : r.pageOf reading u = [] := by simp [pageOf, hdue]
  have hafter : r.afterReading reading u = u := by simp [afterReading, hdue]
  refine ⟨h.content, h.mode, fun i => ?_, ?_⟩
  · rw [h.units i]
    rcases lt_trichotomy i slot with hlt | rfl | hgt
    · simp only [hlt, Nat.lt_succ_of_lt hlt, if_true]
    · simp [hu, hafter]
    · simp only [hgt.not_gt, (Nat.succ_le_of_lt hgt).not_gt, if_false]
  · rw [h.records, take_succ hu, List.flatMap_append, List.flatMap_singleton, hpage,
      List.append_nil]

/-- A unit that is due is turned, and its page is added to the batch. -/
lemma turn (h : r.Walked reading begun slot b s) (hu : begun[slot]? = some u)
    (hdue : u.isDue r reading.now = true) (advance : Option Advance) (filled : Bool) :
    r.Walked reading begun (slot + 1)
      (b.asked.add (r.records (r.pageOf reading u)) advance filled)
      (s.exchange (moveSlot slot (r.lastMark? (r.pageOf reading u)) reading.now)) := by
  have hafter : r.afterReading reading u =
      u.turn (r.lastMark? (r.pageOf reading u)) reading.now := if_pos hdue
  refine ⟨h.content, (Cursor.isPartitioned_moveSlot ..).trans h.mode, fun i => ?_, ?_⟩
  · have hmoved := Cursor.units_moveSlot h.mode slot
      (r.lastMark? (r.pageOf reading u)) reading.now
    rw [Scene.units, Scene.exchange, hmoved, List.getElem?_modify, ← Scene.units, h.units i]
    rcases lt_trichotomy i slot with hlt | rfl | hgt
    · simp [hlt.ne', hlt, Nat.lt_succ_of_lt hlt]
    · simp [hu, hafter]
    · simp [hgt.ne, hgt.not_gt, (Nat.succ_le_of_lt hgt).not_gt]
  · have hrecords : (b.asked.add (r.records (r.pageOf reading u)) advance filled).records =
        b.records ++ r.records (r.pageOf reading u) := rfl
    rw [hrecords, h.records, take_succ hu, List.flatMap_append, List.flatMap_singleton]
    exact (List.map_append ..).symm

end Walked

/-- The slots that are left are read one after the other. -/
lemma walked_readSlots (hmode : r.isPartitioned = true) (hreadable : r.Readable reading.content)
    {begun : List TableUnit} (count : Nat) {slot : Nat} {b : Batch} {s : Scene}
    (h : r.Walked reading begun slot b s) (hcount : slot + count = begun.length) :
    ∃ b' s', (r.readSlots (max reading.limit 1) reading.now count slot b).run (Scene.answer r)
        (fun _ s => s) s = (.ok b', s') ∧ r.Walked reading begun begun.length b' s' := by
  induction count generalizing slot b s with
  | zero =>
    obtain rfl : slot = begun.length := hcount
    exact ⟨b, s, rfl, h⟩
  | succ count ih =>
    have hslot : slot < begun.length := by omega
    obtain ⟨u, hu⟩ : ∃ u, begun[slot]? = some u := ⟨_, List.getElem?_eq_getElem hslot⟩
    -- looking at the cursor leaves the units
    have hlook : r.Walked reading begun slot b (s.exchange id) :=
      ⟨h.content, h.mode, h.units, h.records⟩
    have hunit := hlook.getElem?_units.trans hu
    rw [Scene.units, Cursor.units_getElem?_of_isPartitioned hlook.mode] at hunit
    obtain ⟨p, hp, rfl⟩ := Option.map_eq_some_iff.1 hunit
    obtain ⟨identity, param, progress⟩ := p
    have hat : s.cursor.partitions.slot? slot = some ⟨identity, param, progress⟩ := hp
    rw [readSlots, Program.bind_eq, Activity.look, Scene.run_exchange, hat]
    by_cases hdue : Idle.due progress.idle r.idlePolicy reading.now = true
    · have hfits : r.Fits (Partition.unit ⟨identity, param, progress⟩) :=
        ⟨hmode.symm, rfl, fun hkey => by cases hkey⟩
      have hpage : r.pageOf reading (Partition.unit ⟨identity, param, progress⟩) =
          r.select (s.exchange id).content (r.selection.partitionScan param progress.after.toCell
            progress.unread (max reading.limit 1)) := by
        rw [hlook.content]
        exact (if_pos hdue).trans (select_scanOf reading.content (max reading.limit 1) hfits).symm
      have hrows := readable_pageOf hreadable (Partition.unit ⟨identity, param, progress⟩)
      simp only [hdue, if_true]
      rw [Program.bind_eq, Scene.run_query, ← hpage, scanned_of_readable hrows]
      simp only
      rw [Program.bind_eq, Scene.run_exchange]
      exact ih (hlook.turn hu hdue _ _) (by omega)
    · have hnot : Idle.due progress.idle r.idlePolicy reading.now = false :=
        Bool.eq_false_of_not_eq_true hdue
      simp only [hnot, Bool.false_eq_true, if_false]
      exact ih (hlook.pass hu hnot) (by omega)

/-- A read of partitions succeeds, and takes its page of each of them. -/
theorem readOnce_partitions (hmode : r.isPartitioned = true)
    (hreadable : r.Readable reading.content) (hc : c.isPartitioned = true) :
    ∃ b s, r.readOnce reading.limit reading.now (.opening reading.content c) = (.ok b, s) ∧
      b.records = r.records (c.units.map (r.pageOf reading)).flatten ∧
      s.cursor.units = c.units.map (r.afterReading reading) ∧ s.cursor.isPartitioned = true := by
  have hbegun : r.Walked reading c.units 0 Batch.empty
      ((Scene.opening reading.content c).exchange id) :=
    ⟨rfl, hc, fun i => by simp [Scene.exchange, Scene.opening, Scene.units], by
      simp [Batch.empty, records]⟩
  have hsize : 0 + c.partitions.size = c.units.length := by
    rw [Nat.zero_add, Cursor.length_units_of_isPartitioned hc]
  obtain ⟨b, s, hrun, hwalked⟩ := walked_readSlots hmode hreadable c.partitions.size hbegun hsize
  refine ⟨b, s, ?_, ?_, ?_, hwalked.mode⟩
  · rw [readOnce, read, if_pos hmode]
    have hpartitions : (r.readPartitions (max reading.limit 1) reading.now).run (Scene.answer r)
        (fun _ s => s) (.opening reading.content c) = (.ok b, s) := by
      rw [readPartitions, Program.bind_eq, Activity.look, Scene.run_exchange]
      exact hrun
    simp only [Activity.inside, Program.bind_eq, Program.run_bind, Program.run, Scene.answer]
    rw [hpartitions]
    rfl
  · rw [hwalked.records, List.take_length, List.flatMap_def]
  · refine List.ext_getElem? fun i => ?_
    rw [← Scene.units, hwalked.units i, List.getElem?_map]
    cases hu : c.units[i]? with
    | none => rfl
    | some u =>
      obtain ⟨hi, -⟩ := List.getElem?_eq_some_iff.1 hu
      simp [hi]

/-- Reads in a row of partitions succeed. -/
theorem exists_takes (hmode : r.isPartitioned = true) (hc : c.isPartitioned = true)
    {readings : List Reading} (hreadable : ∀ reading ∈ readings, r.Readable reading.content) :
    ∃ pages, r.Takes readings c pages := by
  induction readings generalizing c with
  | nil => exact ⟨[], .nil c⟩
  | cons reading rest ih =>
    obtain ⟨b, s, hread, hrecords, -, hc'⟩ :=
      readOnce_partitions hmode (hreadable reading (by simp)) hc
    obtain ⟨pages, hrest⟩ := ih hc' fun reading' h => hreadable reading' (by simp [h])
    exact ⟨_, .cons hread hrecords hrest⟩

/-- What reads in a row take of a unit is told by the unit alone. -/
theorem Takes.of_unit {readings : List Reading} {pages : List Shares} (h : r.Takes readings c pages)
    (hmode : r.isPartitioned = true) (hc : c.isPartitioned = true)
    (hreadable : ∀ reading ∈ readings, r.Readable reading.content) {i : Nat} {u : TableUnit}
    (hu : c.units[i]? = some u) :
    pages.flatMap (Shares.of i) = r.taken readings u := by
  induction h generalizing u with
  | nil c => rfl
  | @cons reading rest c b s pages hread _ _ ih =>
    obtain ⟨b', s', hread', -, hunits, hc'⟩ :=
      readOnce_partitions hmode (hreadable reading (by simp)) hc
    obtain ⟨-, rfl⟩ := Prod.mk.inj (hread.symm.trans hread')
    have hnext : s.cursor.units[i]? = some (r.afterReading reading u) := by
      rw [hunits, List.getElem?_map, hu]
      rfl
    have hrest := ih hc' (fun reading' h => hreadable reading' (by simp [h])) hnext
    have hpage : Shares.of i (c.units.map (r.pageOf reading)) = r.pageOf reading u := by
      simp [Shares.of, hu]
    rw [List.flatMap_cons, hpage, hrest, taken]

end Units

section Taken

variable {readings : List Reading}

/-- A read moves a unit behind the last row that it takes, or leaves it where it is. -/
lemma afterReading_boundary (reading : Reading) (u : TableUnit) :
    (r.afterReading reading u).boundary = r.afterPage u.boundary (r.pageOf reading u) := by
  unfold afterReading
  split
  · exact u.turn_boundary r _ _
  · next hdue => simp [pageOf, hdue, afterPage, lastMark?]

/-- Units of the same rows that are equally idle and have the same rows before them are read in the
same way. -/
theorem taken_congr (hkey : u.key = v.key) (hidle : u.progress.idle = v.progress.idle)
    (hpast : ∀ reading ∈ readings, r.rowsPast u.boundary (reading.content u.key) =
      r.rowsPast v.boundary (reading.content u.key)) :
    r.taken readings u = r.taken readings v := by
  induction readings generalizing u v with
  | nil => rfl
  | cons reading rest ih =>
    have hdue : u.isDue r reading.now = v.isDue r reading.now := by
      rw [TableUnit.isDue, TableUnit.isDue, hidle]
    have hpage : r.pageOf reading u = r.pageOf reading v := by
      rw [pageOf, pageOf, hdue, hpast reading (by simp), hkey]
    rw [taken, taken, hpage]
    congr 1
    apply ih
    · simpa using hkey
    · unfold afterReading
      rw [hdue, hpage]
      split
      · unfold TableUnit.turn moveProgress
        cases r.lastMark? (r.pageOf reading v) with
        | none => simp [hidle]
        | some m => rfl
      · exact hidle
    · intro reading' hin
      rw [afterReading_boundary, afterReading_boundary, hpage, afterPage, afterPage]
      simp only [afterReading_key]
      cases r.lastMark? (r.pageOf reading v) with
      | none => exact hpast reading' (by simp [hin])
      | some m => rfl

/-- A read does not move a unit back. -/
lemma notPast_afterReading (reading : Reading) (u : TableUnit) :
    u.boundary.NotPast (r.afterReading reading u).boundary := by
  rw [afterReading_boundary, afterPage]
  cases hlast : r.lastMark? (r.pageOf reading u) with
  | none => exact .refl _
  | some m =>
    obtain ⟨row, hrow, hmark⟩ := Option.bind_eq_some_iff.1 hlast
    have hin := List.mem_of_getLast? hrow
    unfold pageOf at hin
    split at hin
    · have hpast := (List.mem_filter.1 (List.mem_of_mem_take hin)).2
      have hm : r.rowMark row = m := by simp [rowMark, hmark]
      rw [hm] at hpast
      exact Boundary.notPast_behind (by simpa using hpast)
    · cases hin

/-- A row that counts as read is not taken. -/
theorem not_mem_taken {row : Sql.Row} (h : u.boundary.covers (r.rowMark row) = true) :
    row ∉ r.taken readings u := by
  induction readings generalizing u with
  | nil => simp [taken]
  | cons reading rest ih =>
    rw [taken, List.mem_append, not_or]
    constructor
    · intro hrow
      unfold pageOf at hrow
      split at hrow
      · have hpast := (List.mem_filter.1 (List.mem_of_mem_take hrow)).2
        simp [h] at hpast
      · cases hrow
    · exact ih (notPast_afterReading reading u _ h)

/-- The first read of an active unit takes the first one of its rows, if this is still to come. -/
theorem first_mem_taken {row : Sql.Row} {rows : List Sql.Row} (hidle : u.progress.idle = none)
    (hcontent : reading.content u.key = row :: rows)
    (h : u.boundary.covers (r.rowMark row) = false) : row ∈ r.taken (reading :: rest) u := by
  have hdue : u.isDue r reading.now = true := by
    rw [TableUnit.isDue, hidle]
    rfl
  have hpast : r.rowsPast u.boundary (reading.content u.key) =
      row :: r.rowsPast u.boundary rows := by
    rw [hcontent, rowsPast, List.filter_cons_of_pos (by simp [h])]
    rfl
  obtain ⟨limit, hlimit⟩ : ∃ limit, max reading.limit 1 = limit + 1 :=
    Nat.exists_eq_succ_of_ne_zero (by omega)
  rw [taken, List.mem_append, pageOf, if_pos hdue, hpast, hlimit]
  exact .inl (List.mem_cons_self ..)

end Taken

end Reader

end TableTail
