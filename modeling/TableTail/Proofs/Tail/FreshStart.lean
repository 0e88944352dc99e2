import TableTail.Proofs.Tail.Taken
import TableTail.Proofs.Tail.TrackedGroups

/-!
# Where a fresh identity starts

An identity of which neither the configuration nor a checkpoint knows anything is picked up in one
of two ways. When the table is opened, it starts strictly above the configured default, or above the
zero of the mark's kind where there is none. When it is discovered later, it starts at its least
mark, and the row there is still to be read.

The two agree exactly if the least mark is above the default: then the same reads take the same rows
of the identity. Otherwise the identity's first row is taken only if the identity was discovered
(`fresh_identity_taken`).
-/

namespace TableTail

/-- Among the rows of a minimum query one is an identity's: it has the cell that the identity's rows
are selected by, and their least mark. -/
structure AnswersLeast (kind : MarkKind) (rows : List Sql.Row) (identity : String)
    (param : Sql.Cell) (minimum : Mark) : Prop where
  answered : ∃ row ∈ rows,
    Partition.ofMinimum? kind row = some ⟨identity, param, ⟨minimum, true, none⟩⟩
  only : ∀ row ∈ rows, ∀ cell, identityOf? row = some (identity, cell) →
    Partition.ofMinimum? kind row = some ⟨identity, param, ⟨minimum, true, none⟩⟩

/-- Some rows begin with a given one, at the least mark that there is. -/
structure Reader.BeginsAt (r : Reader) (minimum : Mark) (first : Sql.Row) (rows : List Sql.Row) :
    Prop where
  starts : ∃ rest, rows = first :: rest
  least : (r.rowMark first).compareMark minimum = .eq
  behind : ∀ row ∈ rows, (minimum.compareMark (r.rowMark row)).isLE = true

namespace AnswersLeast

variable {kind : MarkKind} {rows : List Sql.Row} {identity : String} {param : Sql.Cell}
  {minimum : Mark}

/-- The cell of the identity is the one that is answered. -/
lemma get?_identitiesOf (h : AnswersLeast kind rows identity param minimum) :
    Named.get? identity (Opening.identitiesOf rows) = some param := by
  obtain ⟨row, hrow, hminimum⟩ := h.answered
  have hknown : Named.has identity (Opening.identitiesOf rows) = true := by
    rw [Named.has_iff, ← Named.names, Opening.identitiesOf, Named.mem_names_ofPairs]
    have hidentity := identityOf?_of_ofMinimum? hminimum
    exact List.mem_map.2 ⟨_, List.mem_filterMap.2 ⟨row, hrow, hidentity⟩, rfl⟩
  obtain ⟨cell, hcell⟩ := Option.isSome_iff_exists.1 hknown
  obtain ⟨row', hrow', hidentity'⟩ := List.mem_filterMap.1 (Opening.mem_of_get?_identitiesOf hcell)
  have honly := identityOf?_of_ofMinimum? (h.only row' hrow' cell hidentity')
  obtain ⟨-, rfl⟩ := Prod.mk.inj (Option.some.inj (hidentity'.symm.trans honly))
  exact hcell

/-- The partition that a discovery adds for the identity is the one that is answered. -/
lemma find?_ofMinimum? (h : AnswersLeast kind rows identity param minimum) :
    (rows.filterMap (Partition.ofMinimum? kind)).find? (fun p => p.identity = identity) =
      some ⟨identity, param, ⟨minimum, true, none⟩⟩ := by
  obtain ⟨row, hrow, hminimum⟩ := h.answered
  obtain ⟨p, hp⟩ : ∃ p, (rows.filterMap (Partition.ofMinimum? kind)).find?
      (fun p => p.identity = identity) = some p :=
    Option.isSome_iff_exists.1 (List.find?_isSome.2
      ⟨_, List.mem_filterMap.2 ⟨row, hrow, hminimum⟩, by simp⟩)
  have hidentity : p.identity = identity := by simpa using List.find?_some hp
  obtain ⟨row', hrow', hminimum'⟩ := List.mem_filterMap.1 (List.mem_of_find?_eq_some hp)
  have honly := h.only row' hrow' p.param (hidentity ▸ identityOf?_of_ofMinimum? hminimum')
  rw [hp, ← hminimum', honly]

end AnswersLeast

namespace Reader

section Rows

variable {r : Reader} {name : Option String} {key : Option Sql.Cell} {start minimum : Mark}
  {first : Sql.Row} {readings : List Reading}

/-- Starting below the least mark and starting at it, all rows are still to be read. -/
lemma BeginsAt.rowsPast_eq {rows : List Sql.Row} (h : r.BeginsAt minimum first rows)
    (hlt : start.compareMark minimum = .lt) :
    r.rowsPast ⟨start, false⟩ rows = rows ∧ r.rowsPast ⟨minimum, true⟩ rows = rows := by
  constructor
  · refine List.filter_eq_self.2 fun row hrow => ?_
    have hbelow : start.compareMark (r.rowMark row) = .lt :=
      @Std.TransCmp.lt_of_lt_of_isLE _ Mark.compareMark _ _ _ _ hlt (h.behind row hrow)
    have hcovers : Boundary.covers ⟨start, false⟩ (r.rowMark row) =
        ((r.rowMark row).compareMark start).isLE := Boundary.covers_behind
    rw [hcovers, Mark.compareMark_swap, hbelow]
    rfl
  · refine List.filter_eq_self.2 fun row hrow => ?_
    have hbehind := h.behind row hrow
    rw [Mark.compareMark_swap] at hbehind
    rw [Boundary.covers]
    cases hc : (r.rowMark row).compareMark minimum with
    | lt => simp [hc] at hbehind
    | eq => rfl
    | gt => rfl

/-- Starting below the least mark and starting at it, the same reads take the same rows. -/
lemma taken_eq_of_lt (hlt : start.compareMark minimum = .lt)
    (hcontent : ∀ reading ∈ readings, r.BeginsAt minimum first (reading.content key)) :
    r.taken readings ⟨name, key, ⟨start, false, none⟩⟩ =
      r.taken readings ⟨name, key, ⟨minimum, true, none⟩⟩ := by
  refine taken_congr rfl rfl fun reading hreading => ?_
  obtain ⟨hstart, hminimum⟩ := (hcontent reading hreading).rowsPast_eq hlt
  exact hstart.trans hminimum.symm

/-- Starting at the least mark or above it, the first row is not taken. -/
lemma first_not_mem_taken (hge : start.compareMark minimum ≠ .lt)
    (hleast : (r.rowMark first).compareMark minimum = .eq) :
    first ∉ r.taken readings ⟨name, key, ⟨start, false, none⟩⟩ := by
  apply not_mem_taken
  have hcovers : (Boundary.behind start).covers (r.rowMark first) = true := by
    rw [Boundary.covers_behind]
    have hminimum : (minimum.compareMark start).isLE = true := by
      rw [Mark.compareMark_swap]
      cases hc : start.compareMark minimum <;> simp_all
    have heq : ((r.rowMark first).compareMark minimum).isLE = true := by rw [hleast]; rfl
    exact @Std.TransCmp.isLE_trans _ Mark.compareMark _ _ _ _ heq hminimum
  exact hcovers

/-- Starting at the least mark, the first row is taken by the first read. -/
lemma first_mem_taken_of_unread (hne : readings ≠ [])
    (hcontent : ∀ reading ∈ readings, r.BeginsAt minimum first (reading.content key)) :
    first ∈ r.taken readings ⟨name, key, ⟨minimum, true, none⟩⟩ := by
  cases readings with
  | nil => exact absurd rfl hne
  | cons reading rest =>
    have hbegins := hcontent reading (List.mem_cons_self ..)
    obtain ⟨others, hrows⟩ := hbegins.starts
    refine first_mem_taken rfl hrows ?_
    have hcovers : Boundary.covers ⟨minimum, true⟩ (r.rowMark first) = false := by
      rw [Boundary.covers, hbegins.least]
      rfl
    exact hcovers

end Rows

section Units

variable {r : Reader} {files : Files} {root : String} {source : Source} {d : Descriptor}
  {schema : Schema} {idlePolicy : IdlePolicy} {column : Sql.Column} {c : Cursor}
  {rows : List Sql.Row} {identity : String} {param : Sql.Cell} {minimum : Mark}

/-- A fresh identity that is in the database when the table is opened starts above the configured
default, or above zero. -/
lemma unit_of_opened
    (hopen : (files.run rows (Reader.open root source d schema idlePolicy)).1 = .ok (r, c))
    (hcolumn : r.selection.identity = some column)
    (hadmits : Opening.admits d.cursor identity = true)
    (hstarts : Named.get? identity d.cursor.starts = none)
    (hpersisted : Named.get? identity (files.persisted root r) = none)
    (hanswered : AnswersLeast r.kind rows identity param minimum) :
    c.isPartitioned = true ∧ ∃ byDefault,
      Opening.readDefault r.name r.kind d.cursor.defaultStart = .ok byDefault ∧
      ∃ i : Nat, c.units[i]? = some
        ⟨some identity, some param, ⟨byDefault.getD (Mark.zero r.kind), false, none⟩⟩ := by
  obtain ⟨hreader, s, hs, rfl⟩ := (Files.run_open_partitioned hcolumn rows).1 hopen
  obtain rfl := Opening.descriptor_of_readerOf hreader
  obtain ⟨hnames, hsaved⟩ := Files.names_of_starts hs
  obtain ⟨hdefault, -, -, hkind⟩ := Files.starts_eq_ok hs
  have hconfigured : Named.get? identity s.configured = none := by
    rw [← Option.not_isSome_iff_eq_none, ← Named.has, Named.has_iff, ← Named.names, hnames,
      Named.names, ← Named.has_iff, Named.has, hstarts]
    simp
  have hget : (Opening.opened r.descriptor.cursor s column rows).get? identity =
      some (s.partition identity param) :=
    (Opening.get?_opened hnames).2 ⟨hadmits, param, rfl, .inl hanswered.get?_identitiesOf⟩
  have hwell : (Opening.opened r.descriptor.cursor s column rows).WellFormed :=
    Opening.wellFormed_partitions
  obtain ⟨hslot, -⟩ := hwell.get?_eq_some_iff.1 hget
  obtain ⟨i, hi⟩ := List.mem_iff_getElem?.1 hslot
  refine ⟨rfl, s.byDefault, hdefault, i, ?_⟩
  have hprogress : (s.partition identity param).progress =
      ⟨s.byDefault.getD (Mark.zero r.kind), false, none⟩ := by
    rw [← hsaved] at hpersisted
    cases hbyDefault : s.byDefault <;>
      simp [Opening.Starts.partition, Mark.partitionStart, Mark.latest, hconfigured, hpersisted,
        hbyDefault, hkind]
  have hunit : (s.partition identity param).unit = ⟨some identity, some param,
      ⟨s.byDefault.getD (Mark.zero r.kind), false, none⟩⟩ := by
    rw [← hprogress]
    rfl
  rw [Cursor.units, List.getElem?_map, hi, Option.map_some, hunit]

/-- A fresh identity that is discovered starts at its least mark, which is still unread. -/
lemma unit_of_discovered {ps : Partitions} (hwell : ps.WellFormed)
    (hnew : ps.has identity = false)
    (hanswered : AnswersLeast r.kind rows identity param minimum) :
    ∃ j : Nat, (Cursor.adopt r.kind rows (.partitioned ps)).units[j]? =
      some ⟨some identity, some param, ⟨minimum, true, none⟩⟩ := by
  have hnone : ps.get? identity = none := by
    rw [← Option.not_isSome_iff_eq_none, hwell.isSome_get?_iff, hnew]
    simp
  have hget : (ps.adopt r.kind rows).get? identity =
      some ⟨identity, param, ⟨minimum, true, none⟩⟩ := by
    rw [hwell.get?_adopt, hnone, hanswered.find?_ofMinimum?, Option.none_or]
  have hadopted : (ps.adopt r.kind rows).WellFormed := hwell.foldl_insert _
  obtain ⟨hslot, -⟩ := hadopted.get?_eq_some_iff.1 hget
  obtain ⟨j, hj⟩ := List.mem_iff_getElem?.1 hslot
  refine ⟨j, ?_⟩
  rw [Cursor.adopt, Cursor.units, List.getElem?_map, hj]
  rfl

end Units

end Reader

section

variable {r : Reader} {files files' : Files} {root : String} {source : Source} {d : Descriptor}
  {schema : Schema} {idlePolicy : IdlePolicy} {column : Sql.Column} {c c' : Cursor} {u : Usage}
  {rows rows' found : List Sql.Row} {identity : String} {param : Sql.Cell} {minimum : Mark}

/-- An identity that is admitted, and neither configured nor persisted, is picked up by opening the
table when its rows are there, and by discovering it when the table was opened before and used in
any way. If its least mark is above the configured default, or above zero where there is none, the
same reads take the same rows of it in both cases. If not, its first row is never taken when the
identity was picked up by opening, and by the first read when it was discovered. -/
theorem fresh_identity_taken
    (hopen : (files.run rows (Reader.open root source d schema idlePolicy)).1 = .ok (r, c))
    (hcolumn : r.selection.identity = some column)
    (hadmits : Opening.admits d.cursor identity = true)
    (hstarts : Named.get? identity d.cursor.starts = none)
    (hpersisted : Named.get? identity (files.persisted root r) = none)
    (hanswered : AnswersLeast r.kind rows identity param minimum)
    (hopen' : (files'.run rows' (Reader.open root source d schema idlePolicy)).1 = .ok (r, c'))
    (hrun : Usage.Run r (Usage.opening c') u) (hnew : u.cursor.partitions.has identity = false)
    (hdiscover : d.cursor.discover = true)
    (hfound : AnswersLeast r.kind found identity param minimum) :
    ∃ byDefault, Opening.readDefault r.name r.kind d.cursor.defaultStart = .ok byDefault ∧
      ∃ i j : Nat,
        c.units[i]? = some
          ⟨some identity, some param, ⟨byDefault.getD (Mark.zero r.kind), false, none⟩⟩ ∧
        (r.discovered found u.cursor).units[j]? = some
          ⟨some identity, some param, ⟨minimum, true, none⟩⟩ ∧
        ∀ readings first, (∀ reading ∈ readings, r.Readable reading.content ∧
            r.BeginsAt minimum first (reading.content (some param))) →
          ∃ pages pages', r.Takes readings c pages ∧
            r.Takes readings (r.discovered found u.cursor) pages' ∧
            ((byDefault.getD (Mark.zero r.kind)).compareMark minimum = .lt →
              pages.flatMap (Shares.of i) = pages'.flatMap (Shares.of j)) ∧
            ((byDefault.getD (Mark.zero r.kind)).compareMark minimum ≠ .lt → readings ≠ [] →
              first ∉ pages.flatMap (Shares.of i) ∧ first ∈ pages'.flatMap (Shares.of j)) := by
  have hmode : r.isPartitioned = true := by rw [Reader.isPartitioned, hcolumn]; rfl
  obtain ⟨hpartitioned, byDefault, hdefault, i, hi⟩ :=
    Reader.unit_of_opened hopen hcolumn hadmits hstarts hpersisted hanswered
  obtain ⟨ps, hps, hwell⟩ := hrun.partitions_wellFormed hopen' hcolumn
  have hdescriptor : r.descriptor = d := by
    obtain ⟨hreader, -⟩ := (Files.run_open_partitioned hcolumn rows).1 hopen
    exact Opening.descriptor_of_readerOf hreader
  have hdiscovered : r.discovered found u.cursor = Cursor.adopt r.kind found (.partitioned ps) := by
    rw [Reader.discovered_eq hcolumn, hdescriptor, if_pos hdiscover, hps]
  rw [hps] at hnew
  obtain ⟨j, hj⟩ := Reader.unit_of_discovered hwell hnew hfound
  refine ⟨byDefault, hdefault, i, j, hi, hdiscovered ▸ hj, fun readings first hreadings => ?_⟩
  have hreadable : ∀ reading ∈ readings, r.Readable reading.content :=
    fun reading h => (hreadings reading h).1
  have hcontent : ∀ reading ∈ readings, r.BeginsAt minimum first (reading.content (some param)) :=
    fun reading h => (hreadings reading h).2
  rw [hdiscovered]
  obtain ⟨pages, htakes⟩ := Reader.exists_takes hmode hpartitioned hreadable
  obtain ⟨pages', htakes'⟩ := Reader.exists_takes hmode
    (c := Cursor.adopt r.kind found (.partitioned ps)) rfl hreadable
  refine ⟨pages, pages', htakes, htakes', ?_⟩
  rw [htakes.of_unit hmode hpartitioned hreadable hi, htakes'.of_unit hmode rfl hreadable hj]
  constructor
  · intro hlt
    exact Reader.taken_eq_of_lt hlt hcontent
  · intro hge hne
    obtain ⟨reading, hreading⟩ := List.exists_mem_of_ne_nil readings hne
    have hleast := (hcontent reading hreading).least
    exact ⟨Reader.first_not_mem_taken hge hleast, Reader.first_mem_taken_of_unread hne hcontent⟩

end

namespace Journal

/-- The journal as it is opened without a checkpoint, when its database answers some owners. -/
def openedOn (rows : List Sql.Row) : Cursor :=
  .partitioned (Opening.opened descriptor.cursor ⟨.integer, none, [], [], []⟩
    ⟨"owner", "TEXT", "TEXT", .text, true⟩ rows)

/-- The journal can be opened so. -/
lemma run_open (rows : List Sql.Row) :
    (Files.run rows (fun _ => none) (Reader.open "." source descriptor schema ⟨0, 0⟩)).1 =
      .ok (reader, openedOn rows) :=
  (Files.run_open_partitioned rfl rows).2 ⟨rfl, _, rfl, rfl⟩

/-- An owner's least entry is answered. -/
lemma answersLeast (id : Int64) :
    AnswersLeast .integer [least "ada" id] "ada" (.text "ada") (.integer id) where
  answered := ⟨_, List.mem_cons_self .., rfl⟩
  only row hrow cell hcell := by
    obtain rfl := List.mem_singleton.1 hrow
    rfl

/-- The entries of the owner begin with a number, and go on with the numbers behind it. -/
def entriesFrom (id : Int64) : Option Sql.Cell → List Sql.Row
  | some (.text "ada") => [row id "ada", row (id + 1) "ada"]
  | _ => []

/-- The entries can be read. -/
lemma readable_entriesFrom (id : Int64) : reader.Readable (entriesFrom id) := by
  intro key row hrow
  unfold entriesFrom at hrow
  split at hrow
  · rcases List.mem_cons.1 hrow with rfl | hsecond
    · rfl
    · obtain rfl := List.mem_singleton.1 hsecond
      rfl
  · cases hrow

/-- The entries begin at one. -/
lemma beginsAt_one :
    reader.BeginsAt (.integer 1) (row 1 "ada") (entriesFrom 1 (some (.text "ada"))) :=
  ⟨⟨_, rfl⟩, by decide +kernel, by decide +kernel⟩

/-- The entries begin at zero. -/
lemma beginsAt_zero :
    reader.BeginsAt (.integer 0) (row 0 "ada") (entriesFrom 0 (some (.text "ada"))) :=
  ⟨⟨_, rfl⟩, by decide +kernel, by decide +kernel⟩

/-- Entries from one on are taken alike, whether their owner was there or was discovered. -/
theorem owner_taken_alike :
    ∃ i j pages pages', reader.Takes [⟨2, 0, entriesFrom 1⟩] (openedOn [least "ada" 1]) pages ∧
      reader.Takes [⟨2, 0, entriesFrom 1⟩]
        (reader.discovered [least "ada" 1] (Usage.opening (openedOn [])).cursor) pages' ∧
      pages.flatMap (Shares.of i) = pages'.flatMap (Shares.of j) := by
  have hnew : (Usage.opening (openedOn [])).cursor.partitions.has "ada" = false := by
    decide +kernel
  obtain ⟨byDefault, hdefault, i, j, -, -, htaken⟩ := fresh_identity_taken
    (run_open [least "ada" 1]) rfl rfl rfl rfl (answersLeast 1) (run_open []) .refl hnew rfl
    (answersLeast 1)
  obtain rfl := Except.ok.inj hdefault
  obtain ⟨pages, pages', htakes, htakes', hsame, -⟩ :=
    htaken [⟨2, 0, entriesFrom 1⟩] (row 1 "ada") (by
      intro reading hreading
      obtain rfl := List.mem_singleton.1 hreading
      exact ⟨readable_entriesFrom 1, beginsAt_one⟩)
  exact ⟨i, j, pages, pages', htakes, htakes', hsame (by decide +kernel)⟩

/-- Of entries from zero on the first one is not taken when their owner was there, and is taken
when the owner was discovered. -/
theorem entry_at_zero_taken_if_discovered :
    (Files.run [least "ada" 0] (fun _ => none)
        (Reader.open "." source descriptor schema ⟨0, 0⟩)).1 =
      .ok (reader, openedOn [least "ada" 0]) ∧
    (Files.run [] (fun _ => none) (Reader.open "." source descriptor schema ⟨0, 0⟩)).1 =
      .ok (reader, openedOn []) ∧
    (openedOn [least "ada" 0]).units.map (·.name) = [some "ada"] ∧
    (reader.discovered [least "ada" 0] (openedOn [])).units.map (·.name) = [some "ada"] ∧
    ∃ pages pages', reader.Takes [⟨2, 0, entriesFrom 0⟩] (openedOn [least "ada" 0]) pages ∧
      reader.Takes [⟨2, 0, entriesFrom 0⟩]
        (reader.discovered [least "ada" 0] (openedOn [])) pages' ∧
      row 0 "ada" ∉ pages.flatMap (Shares.of 0) ∧ row 0 "ada" ∈ pages'.flatMap (Shares.of 0) := by
  have hreadable : ∀ reading ∈ [Reading.mk 2 0 (entriesFrom 0)],
      reader.Readable reading.content := by
    intro reading hreading
    obtain rfl := List.mem_singleton.1 hreading
    exact readable_entriesFrom 0
  have hcontent : ∀ reading ∈ [Reading.mk 2 0 (entriesFrom 0)],
      reader.BeginsAt (.integer 0) (row 0 "ada") (reading.content (some (.text "ada"))) := by
    intro reading hreading
    obtain rfl := List.mem_singleton.1 hreading
    exact beginsAt_zero
  have hopened : (openedOn [least "ada" 0]).units[0]? =
      some ⟨some "ada", some (.text "ada"), ⟨.integer 0, false, none⟩⟩ := rfl
  have hdiscovered : (reader.discovered [least "ada" 0] (openedOn [])).units[0]? =
      some ⟨some "ada", some (.text "ada"), ⟨.integer 0, true, none⟩⟩ := rfl
  obtain ⟨pages, htakes⟩ := Reader.exists_takes (r := reader) (c := openedOn [least "ada" 0]) rfl rfl
    hreadable
  obtain ⟨pages', htakes'⟩ := Reader.exists_takes (r := reader)
    (c := reader.discovered [least "ada" 0] (openedOn [])) rfl rfl hreadable
  refine ⟨run_open _, run_open _, rfl, rfl, pages, pages', htakes, htakes', ?_, ?_⟩
  · rw [htakes.of_unit rfl rfl hreadable hopened]
    exact Reader.first_not_mem_taken (by decide +kernel) beginsAt_zero.least
  · rw [htakes'.of_unit rfl rfl hreadable hdiscovered]
    exact Reader.first_mem_taken_of_unread (by simp) hcontent

end Journal

end TableTail
