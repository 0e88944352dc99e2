import TableTail.Proofs.Tail.Cut

/-!
# Undoing a read

The moves of a batch name different units, and each of them leads from where its unit was to where
the read has left it. So undoing them puts every unit that the read found back to its boundary,
whether it moved or not (`Reader.boundary_undone`), and nothing that came behind these units in the
meantime is named by a move. A move is undone only while its unit is where it led; so a second
rollback finds nothing left to do (`Cursor.undoAll_undoAll`), and a unit that is elsewhere stays
there (`TableUnit.foldl_undo_eq_self`).
-/

namespace TableTail

namespace TableUnit

variable {l : List Advance} {a : Advance} {u : TableUnit}

/-- A unit that is not where a move led is left where it is. -/
lemma undo_eq_self (h : a.unit = u.name → u.progress.after.same a.after = false) :
    u.undo a = u := by
  unfold undo Progress.undo
  split
  · next hname => rw [h hname.symm]; rfl
  · rfl

/-- A unit that is not where any of some moves led is left where it is. -/
lemma foldl_undo_eq_self (h : ∀ a ∈ l, a.unit = u.name → u.progress.after.same a.after = false) :
    l.foldl (fun u a => u.undo a) u = u :=
  foldl_undo_fixed fun a ha => undo_eq_self (h a ha)

/-- A move that has been undone is not undone again. -/
lemma undo_undo (a : Advance) (u : TableUnit) : (u.undo a).undo a = u.undo a := by
  unfold undo Progress.undo
  split_ifs <;> simp_all

/-- Of moves of different units, a unit's own one is all that is undone in it. -/
lemma foldl_undo_eq (hnodup : (l.map (·.unit)).Nodup) (ha : a ∈ l) (hunit : a.unit = u.name) :
    l.foldl (fun u a => u.undo a) u = u.undo a := by
  obtain ⟨before, after, rfl⟩ := List.append_of_mem ha
  rw [List.map_append, List.map_cons, List.nodup_append] at hnodup
  obtain ⟨-, hafter, hbefore⟩ := hnodup
  have hfirst : before.foldl (fun u a => u.undo a) u = u := by
    refine foldl_undo_of_ne fun a' ha' heq => ?_
    exact hbefore _ (List.mem_map_of_mem ha') _ List.mem_cons_self (heq.symm.trans hunit.symm)
  have hrest : after.foldl (fun u a => u.undo a) (u.undo a) = u.undo a := by
    refine foldl_undo_of_ne fun a' ha' heq => ?_
    rw [undo_name, ← hunit] at heq
    exact (List.nodup_cons.1 hafter).1 (heq ▸ List.mem_map_of_mem ha')
  rw [List.foldl_append, hfirst, List.foldl_cons, hrest]

/-- Moves of different units that have been undone are not undone again. -/
lemma foldl_undo_foldl_undo (hnodup : (l.map (·.unit)).Nodup) (u : TableUnit) :
    l.foldl (fun u a => u.undo a) (l.foldl (fun u a => u.undo a) u) =
      l.foldl (fun u a => u.undo a) u := by
  by_cases hown : ∃ a ∈ l, a.unit = u.name
  · obtain ⟨a, ha, hunit⟩ := hown
    rw [foldl_undo_eq hnodup ha hunit, foldl_undo_eq hnodup ha (by simpa using hunit), undo_undo]
  · have hself : l.foldl (fun u a => u.undo a) u = u :=
      foldl_undo_of_ne fun a ha heq => hown ⟨a, ha, heq.symm⟩
    rw [hself, hself]

end TableUnit

namespace Batch

/-- Moves that can be undone one by one: they are of different units, and a table that is read as a
whole has nothing unread. -/
structure Separate (b : Batch) : Prop where
  nodup : (b.advances.map (·.unit)).Nodup
  single : ∀ a ∈ b.advances, a.unit = none → a.wasUnread = false

end Batch

namespace Cursor

variable {c : Cursor} {b : Batch}

/-- Undoing a move leaves the index. -/
@[simp] lemma index_undo (a : Advance) (c : Cursor) :
    (c.undo a).partitions.index = c.partitions.index := by
  cases c with
  | single after idle =>
    rw [undo]
    split <;> rfl
  | partitioned ps =>
    rw [undo]
    cases a.unit with
    | none => rfl
    | some identity =>
      show (ps.change identity _).index = ps.index
      unfold Partitions.change
      split <;> rfl

/-- Undoing the moves of a batch leaves the index. -/
@[simp] lemma index_undoAll (b : Batch) (c : Cursor) :
    (c.undoAll b).partitions.index = c.partitions.index := by
  unfold undoAll
  induction b.advances.reverse generalizing c with
  | nil => rfl
  | cons a rest ih => rw [List.foldl_cons, ih, index_undo]

/-- A cursor is known by its units, its index and its mode. -/
lemma ext_units {c' : Cursor} (hmode : c.isPartitioned = c'.isPartitioned)
    (hindex : c.partitions.index = c'.partitions.index) (hunits : c.units = c'.units) : c = c' := by
  cases c with
  | single after idle =>
    cases c' with
    | single after' idle' => simpa [units] using hunits
    | partitioned ps' => cases hmode
  | partitioned ps =>
    cases c' with
    | single after' idle' => cases hmode
    | partitioned ps' =>
      have hinjective : Function.Injective Partition.unit := by
        rintro ⟨identity, param, progress⟩ ⟨identity', param', progress'⟩ h
        simpa [Partition.unit] using h
      obtain ⟨slots, index⟩ := ps
      obtain ⟨slots', index'⟩ := ps'
      obtain rfl : index = index' := hindex
      obtain rfl : slots = slots' := List.map_injective_iff.2 hinjective hunits
      rfl

/-- Undoing a batch undoes its moves in each unit. -/
lemma units_undoAll (hc : c.WellFormed) (hb : b.Separate) :
    (c.undoAll b).units =
      c.units.map fun u => b.advances.reverse.foldl (fun u a => u.undo a) u :=
  units_foldl_undo hc fun a ha => hb.single a (List.mem_reverse.1 ha)

/-- A batch that has been undone is not undone again. -/
theorem undoAll_undoAll (hc : c.WellFormed) (hb : b.Separate) :
    (c.undoAll b).undoAll b = c.undoAll b := by
  have hreverse : (b.advances.reverse.map (·.unit)).Nodup := by
    rw [List.map_reverse]
    exact List.nodup_reverse.2 hb.nodup
  refine ext_units (isPartitioned_undoAll b _) (index_undoAll b _) ?_
  rw [units_undoAll (hc.undoAll b) hb, units_undoAll hc hb, List.map_map]
  exact List.map_congr_left fun u _ => TableUnit.foldl_undo_foldl_undo hreverse u

end Cursor

namespace Reader

variable {r : Reader} {limit now : Nat} {units units' : List TableUnit} {visits : List Visit}

/-- The moves that units give are their own. -/
lemma mem_advances_gathered {a : Advance} :
    a ∈ (r.gathered limit now units visits).advances ↔ ∃ (j : Nat) (u : TableUnit) (visit : Visit),
      units[j]? = some u ∧ visits[j]? = some visit ∧ r.moveOf? now u visit = some a := by
  rw [advances_gathered, List.mem_filterMap]
  constructor
  · rintro ⟨⟨u, visit⟩, hmem, hmove⟩
    obtain ⟨j, hj⟩ := List.mem_iff_getElem?.1 hmem
    obtain ⟨hu, hvisit⟩ := List.getElem?_zip_eq_some.1 hj
    exact ⟨j, u, visit, hu, hvisit, hmove⟩
  · rintro ⟨j, u, visit, hu, hvisit, hmove⟩
    exact ⟨(u, visit), List.mem_of_getElem? (List.getElem?_zip_eq_some.2 ⟨hu, hvisit⟩), hmove⟩

/-- A move names its unit, and says whether the row at its start was still to be read. -/
lemma eq_of_moveOf? {u : TableUnit} {visit : Visit} {a : Advance}
    (h : r.moveOf? now u visit = some a) :
    a = ⟨u.name, u.progress.after, u.progress.unread,
      (u.afterVisit r now visit).progress.after⟩ := by
  unfold moveOf? at h
  split at h
  · cases h
  · exact (Option.some.inj h).symm

/-- The units whose moves are given come in the order of the units. -/
lemma advances_sublist (limit now : Nat) (units : List TableUnit) (visits : List Visit) :
    ((r.gathered limit now units visits).advances.map (·.unit)).Sublist (units.map (·.name)) := by
  induction units generalizing visits with
  | nil => simp [advances_gathered]
  | cons u rest ih =>
    cases visits with
    | nil => simp [advances_gathered]
    | cons visit visits =>
      have hrest := ih visits
      rw [advances_gathered] at hrest ⊢
      rw [List.zip_cons_cons, List.filterMap_cons, List.map_cons]
      cases hmove : r.moveOf? now u visit with
      | none => exact hrest.cons _
      | some a =>
        rw [eq_of_moveOf? hmove]
        exact hrest.cons_cons _

/-- A unit whose visit gives no move keeps its boundary. -/
lemma boundary_afterVisit {u : TableUnit} {visit : Visit} (h : r.moveOf? now u visit = none) :
    (u.afterVisit r now visit).boundary = u.boundary := by
  cases visit with
  | unreached => rfl
  | leftOut => rfl
  | asked answer =>
    cases hscanned : r.scanned answer with
    | error e => simp [TableUnit.afterVisit, hscanned]
    | ok page =>
      obtain ⟨rows, last⟩ := page
      rw [(rowsOf_asked hscanned now u).2] at h
      obtain rfl : last = none := by simpa using h
      simp only [TableUnit.afterVisit, hscanned]
      rfl

/-- A visit leaves a unit the unit that it is. -/
@[simp] lemma place_afterVisit (u : TableUnit) (visit : Visit) :
    (u.afterVisit r now visit).place = u.place := by
  unfold TableUnit.afterVisit
  split
  · split <;> rfl
  · rfl

/-- The moves of units with different names can be undone one by one. -/
lemma separate_gathered (hnodup : (units.map (·.name)).Nodup)
    (hsingle : ∀ u ∈ units, u.name = none → u.progress.unread = false) (limit : Nat)
    (visits : List Visit) : (r.gathered limit now units visits).Separate where
  nodup := hnodup.sublist (advances_sublist limit now units visits)
  single a ha hnone := by
    obtain ⟨j, u, visit, hu, -, hmove⟩ := mem_advances_gathered.1 ha
    rw [eq_of_moveOf? hmove] at hnone ⊢
    exact hsingle u (List.mem_of_getElem? hu) hnone

/-- Undoing what units have given puts each of them back to its boundary. -/
theorem boundary_undone (hnodup : (units.map (·.name)).Nodup) {j : Nat} {u : TableUnit}
    {visit : Visit} (hu : units[j]? = some u) (hvisit : visits[j]? = some visit) :
    ((r.gathered limit now units visits).advances.reverse.foldl (fun u a => u.undo a)
      (u.afterVisit r now visit)).boundary = u.boundary := by
  have hname : (u.afterVisit r now visit).name = u.name :=
    congrArg Prod.fst (place_afterVisit u visit)
  have hreverse : ((r.gathered limit now units visits).advances.reverse.map (·.unit)).Nodup := by
    rw [List.map_reverse]
    exact List.nodup_reverse.2 (hnodup.sublist (advances_sublist limit now units visits))
  cases hmove : r.moveOf? now u visit with
  | some a =>
    have ha : a ∈ (r.gathered limit now units visits).advances.reverse :=
      List.mem_reverse.2 (mem_advances_gathered.2 ⟨j, u, visit, hu, hvisit, hmove⟩)
    obtain rfl := eq_of_moveOf? hmove
    rw [TableUnit.foldl_undo_eq hreverse ha hname.symm, ← hname]
    exact TableUnit.undo_self u.boundary _
  | none =>
    have hother : ∀ a ∈ (r.gathered limit now units visits).advances.reverse,
        (u.afterVisit r now visit).name ≠ a.unit := by
      intro a ha heq
      obtain ⟨k, v, visit', hv, hvisit', hmove'⟩ :=
        mem_advances_gathered.1 (List.mem_reverse.1 ha)
      obtain rfl := eq_of_moveOf? hmove'
      have hsame : (units.map (·.name))[j]? = (units.map (·.name))[k]? := by
        rw [List.getElem?_map, List.getElem?_map, hu, hv]
        exact congrArg some (hname.symm.trans heq)
      have hj : j < (units.map (·.name)).length := by
        rw [List.length_map]
        exact (List.getElem?_eq_some_iff.1 hu).1
      obtain rfl : j = k := (List.getElem?_inj hj hnodup).1 hsame
      obtain rfl : u = v := Option.some.inj (hu.symm.trans hv)
      obtain rfl : visit = visit' := Option.some.inj (hvisit.symm.trans hvisit')
      rw [hmove] at hmove'
      cases hmove'
    rw [TableUnit.foldl_undo_of_ne hother]
    exact boundary_afterVisit hmove

end Reader

namespace Polling

variable {σ α : Type} {r : Reader} {executor : Executor σ} {p : Polling σ}

/-- A table after a call of it. -/
def call (r : Reader) (executor : Executor σ) (p : Polling σ) (call : Call) : Polling σ :=
  (perform r executor (r.call call) p).2

/-- What all updates of a call do to a cursor, and any number of such steps in a row, its program
does to the table's cursor. -/
lemma perform_of_asks {R : Cursor → Cursor → Prop} (hrefl : ∀ c, R c c)
    (htrans : ∀ {c c' c''}, R c c' → R c' c'' → R c c'') {call : Call}
    (hmakes : ∀ update, call.Makes update → ∀ c, R c (update.apply c)) {program : Activity α}
    (h : program.Asks (Calls.Acts r call)) (p : Polling σ) :
    R p.cursor (perform r executor program p).2.cursor := by
  induction program generalizing p with
  | done a => exact hrefl _
  | pause ms next ih => exact ih h p
  | ask q next ih =>
    obtain ⟨hq, hnext⟩ := h
    have hstep : R p.cursor (answer r executor q p).2.cursor := by
      cases q with
      | exchange table change =>
        obtain ⟨rfl, hchange⟩ := hq
        simp only [answer, if_true, exchange]
        rcases hchange with rfl | ⟨update, hupdate, rfl⟩
        · exact hrefl _
        · exact hmakes update hupdate _
      | _ => exact hrefl _
    exact htrans hstep (ih _ (hnext _) _)

/-- A read keeps the cursor well-formed. -/
lemma wellFormed_read (executor : Executor σ) (limit now : Nat) (h : p.cursor.WellFormed) :
    (perform r executor (r.read limit now) p).2.cursor.WellFormed := by
  obtain ⟨program, hread, hprogram⟩ := Calls.exists_read r limit now
  have hasks : (r.read limit now).Asks (Calls.Acts r (.read limit now)) :=
    hread ▸ Calls.asks_inside hprogram
  exact perform_of_asks (R := fun c c' => c.WellFormed → c'.WellFormed) (fun _ => id)
    (fun hcc' hc'c'' => hc'c'' ∘ hcc') (fun update _ _ hc => update.wellFormed hc) hasks p h

/-- Discoveries and checkpoints keep the cursor well-formed, and the units that there are. -/
lemma call_grows (r : Reader) (executor : Executor σ) {c : Call}
    (hcall : c = .discover ∨ c = .checkpoint) (p : Polling σ) :
    (p.cursor.WellFormed → (p.call r executor c).cursor.WellFormed) ∧
      p.cursor.units <+: (p.call r executor c).cursor.units := by
  refine perform_of_asks (R := fun c c' => (c.WellFormed → c'.WellFormed) ∧ c.units <+: c'.units)
    (fun c => ⟨id, List.prefix_refl _⟩)
    (fun h h' => ⟨h'.1 ∘ h.1, h.2.trans h'.2⟩) ?_ (Calls.asks_call r c) p
  intro update hupdate cursor
  refine ⟨fun hwell => update.wellFormed hwell, ?_⟩
  rcases hcall with rfl | rfl
  · cases update with
    | discovered kind rows =>
      obtain ⟨added, hadded, -⟩ := cursor.units_adopt kind rows
      exact ⟨added, hadded.symm⟩
    | _ => exact hupdate.elim
  · cases update <;> exact hupdate.elim

/-- So do any number of them. -/
lemma calls_grow (r : Reader) (executor : Executor σ) {calls : List Call}
    (hcalls : ∀ c ∈ calls, c = .discover ∨ c = .checkpoint) (p : Polling σ) :
    (p.cursor.WellFormed → (calls.foldl (call r executor) p).cursor.WellFormed) ∧
      p.cursor.units <+: (calls.foldl (call r executor) p).cursor.units := by
  induction calls generalizing p with
  | nil => exact ⟨id, List.prefix_refl _⟩
  | cons c rest ih =>
    obtain ⟨hwell, hprefix⟩ := call_grows r executor (hcalls c (by simp)) p
    obtain ⟨hwell', hprefix'⟩ := ih (fun c' hc' => hcalls c' (by simp [hc'])) (p.call r executor c)
    exact ⟨hwell' ∘ hwell, hprefix.trans hprefix'⟩

/-- A rollback undoes the moves of its batch. -/
lemma perform_rollback (executor : Executor σ) (b : Batch) (p : Polling σ) :
    perform r executor (r.rollback b) p = ((), p.exchange (Cursor.undoAll b)) := by
  rw [Reader.rollback, perform_inside, Program.bind_eq, perform_exchange]
  rfl

end Polling

namespace Reader

variable {σ : Type} {r : Reader} {p : Polling σ}

/-- The batch of a read has moves that can be undone one by one, and undoing them puts each unit
that the read found back to its boundary, behind which only new units have come. -/
lemma undone_read (executor : Executor σ) (limit now : Nat)
    (hmode : p.cursor.isPartitioned = r.isPartitioned) (hwell : p.cursor.WellFormed) {b : Batch}
    {read : Polling σ}
    (hb : b = Usage.given (Polling.perform r executor (r.read limit now) p).1)
    (hread : read = (Polling.perform r executor (r.read limit now) p).2) :
    b.Separate ∧ (∀ a ∈ b.advances, a.unit ∈ p.cursor.units.map (·.name)) ∧
      read.cursor.units.map (·.place) = p.cursor.units.map (·.place) ∧
      ∀ (j : Nat) (u v : TableUnit), p.cursor.units[j]? = some u →
        read.cursor.units[j]? = some v →
        (b.advances.reverse.foldl (fun u a => u.undo a) v).boundary = u.boundary := by
  obtain ⟨visits, hgone⟩ := gone_read executor limit now hmode
  obtain ⟨units', hgoes, hunits⟩ := hgone.units
  rw [hgone.outcome, given_ended, Batch.empty_append] at hb
  subst hb hread
  have hsingle : ∀ u ∈ p.cursor.units, u.name = none → u.progress.unread = false := by
    intro u hu hnone
    cases hcursor : p.cursor with
    | single after idle =>
      rw [hcursor] at hu
      obtain rfl := List.mem_singleton.1 hu
      rfl
    | partitioned ps =>
      rw [hcursor] at hu
      obtain ⟨q, -, rfl⟩ := List.mem_map.1 hu
      cases hnone
  refine ⟨separate_gathered hwell.nodup hsingle _ visits, fun a ha => ?_, ?_, ?_⟩
  · exact (advances_sublist _ now p.cursor.units visits).subset (List.mem_map_of_mem ha)
  · rw [hunits]
    exact hgoes.map_place
  · intro j u v hu hv
    obtain ⟨visit, hvisit, hafter, -⟩ := hgoes.unit hu
    rw [hunits] at hv
    obtain rfl : u.afterVisit r now visit = v := Option.some.inj (hafter.symm.trans hv)
    exact boundary_undone hwell.nodup hu hvisit

/-- A rollback undoes a read, whatever this was answered and whether it was cut off. After any
number of discoveries and checkpoints it leads every unit that the read found back to its mark, and
to whether the row there is unread. Units that have been discovered in the meantime are left alone,
and the same rollback once more changes nothing. In no state does it change a unit that is not where
the batch moved it to. -/
theorem rollback_undoes_read (executor : Executor σ) (limit now : Nat)
    (hmode : p.cursor.isPartitioned = r.isPartitioned) (hwell : p.cursor.WellFormed) {b : Batch}
    {read between undone : Polling σ}
    (hb : b = Usage.given (Polling.perform r executor (r.read limit now) p).1)
    (hread : read = (Polling.perform r executor (r.read limit now) p).2) {calls : List Call}
    (hcalls : ∀ c ∈ calls, c = .discover ∨ c = .checkpoint)
    (hbetween : between = calls.foldl (Polling.call r executor) read)
    (hundone : undone = (Polling.perform r executor (r.rollback b) between).2) :
    (∀ (j : Nat) (u : TableUnit), p.cursor.units[j]? = some u → ∃ u',
      undone.cursor.units[j]? = some u' ∧ u'.place = u.place ∧ u'.boundary = u.boundary) ∧
    undone.cursor.units.drop p.cursor.units.length =
      between.cursor.units.drop p.cursor.units.length ∧
    (Polling.perform r executor (r.rollback b) undone).2.cursor = undone.cursor ∧
    ∀ (q : Polling σ), q.cursor.WellFormed → ∀ (j : Nat) (u : TableUnit),
      q.cursor.units[j]? = some u →
      (∀ a ∈ b.advances, a.unit = u.name → u.progress.after.same a.after = false) →
      (Polling.perform r executor (r.rollback b) q).2.cursor.units[j]? = some u := by
  obtain ⟨hseparate, hunit, hplaces, hundo⟩ :=
    undone_read executor limit now hmode hwell hb hread
  have hwellRead : read.cursor.WellFormed := hread ▸ Polling.wellFormed_read executor limit now hwell
  obtain ⟨hgrown, added, hadded⟩ := Polling.calls_grow r executor hcalls read
  rw [← hbetween] at hgrown hadded
  have hwellBetween : between.cursor.WellFormed := hgrown hwellRead
  have hcursor : undone.cursor = between.cursor.undoAll b := by
    rw [hundone, Polling.perform_rollback]
    rfl
  have hunits : undone.cursor.units = between.cursor.units.map fun u =>
      b.advances.reverse.foldl (fun u a => u.undo a) u := by
    rw [hcursor, Cursor.units_undoAll hwellBetween hseparate]
  have hlength : read.cursor.units.length = p.cursor.units.length := by
    simpa using congrArg List.length hplaces
  refine ⟨?_, ?_, ?_, ?_⟩
  · intro j u hu
    have hj : j < read.cursor.units.length := by
      rw [hlength]
      exact (List.getElem?_eq_some_iff.1 hu).1
    obtain ⟨v, hv⟩ : ∃ v, read.cursor.units[j]? = some v := ⟨_, List.getElem?_eq_getElem hj⟩
    have hplace : v.place = u.place := by
      have hsame := congrArg (fun l => l[j]?) hplaces
      simpa [hu, hv] using hsame
    refine ⟨b.advances.reverse.foldl (fun u a => u.undo a) v, ?_, ?_, hundo j u v hu hv⟩
    · rw [hunits, ← hadded, List.getElem?_map, List.getElem?_append_left hj, hv]
      rfl
    · rw [TableUnit.foldl_undo_place, hplace]
  · -- The moves name units that the read found, and a well-formed cursor has no name twice.
    have hnames : read.cursor.units.map (·.name) = p.cursor.units.map (·.name) := by
      have hfirst := congrArg (List.map Prod.fst) hplaces
      simpa [Function.comp_def, TableUnit.place] using hfirst
    have hnodup := hwellBetween.nodup
    rw [← hadded, List.map_append, hnames, List.nodup_append] at hnodup
    have hleft : added.map (fun u => b.advances.reverse.foldl (fun u a => u.undo a) u) = added := by
      refine (List.map_congr_left fun u hu => ?_).trans (List.map_id _)
      refine TableUnit.foldl_undo_of_ne fun a ha heq => ?_
      exact hnodup.2.2 _ (hunit a (List.mem_reverse.1 ha)) _ (List.mem_map_of_mem hu) heq.symm
    rw [hunits, ← hadded, List.map_append, hleft, ← hlength, List.drop_left,
      List.drop_left' (by simp)]
  · rw [Polling.perform_rollback]
    show undone.cursor.undoAll b = undone.cursor
    rw [hcursor]
    exact Cursor.undoAll_undoAll hwellBetween hseparate
  · intro q hq j u hu helsewhere
    rw [Polling.perform_rollback]
    show (q.cursor.undoAll b).units[j]? = some u
    rw [Cursor.units_undoAll hq hseparate, List.getElem?_map, hu, Option.map_some,
      TableUnit.foldl_undo_eq_self fun a ha => helsewhere a (List.mem_reverse.1 ha)]

end Reader

namespace Journal

/-- Reading Bob's first entry, which is the one that he starts at, and not Cleo's; then a discovery
and a checkpoint; then the rollback. Bob's first entry is unread again. -/
theorem rollback_undoes_read_journal :
    ∃ b : Batch, ∃ read between undone : Polling Nat,
      b = Usage.given
        (Polling.perform patientReader failing (patientReader.read 10 500) ⟨owners, 0, []⟩).1 ∧
      read = (Polling.perform patientReader failing (patientReader.read 10 500) ⟨owners, 0, []⟩).2 ∧
      between = [Call.discover, .checkpoint].foldl (Polling.call patientReader failing) read ∧
      undone = (Polling.perform patientReader failing (patientReader.rollback b) between).2 ∧
      b.advances = [⟨some "bob", .integer 5, true, .integer 5⟩] ∧
      between.cursor.units.length = 5 ∧
      (∃ u', undone.cursor.units[1]? = some u' ∧ u'.name = some "bob" ∧
        u'.boundary = ⟨.integer 5, true⟩) ∧
      undone.cursor.units.drop 4 = between.cursor.units.drop 4 ∧
      (Polling.perform patientReader failing (patientReader.rollback b) undone).2.cursor =
        undone.cursor := by
  have hwell : owners.WellFormed := Partitions.WellFormed.empty.foldl_insert _
  have hcalls : ∀ c ∈ [Call.discover, .checkpoint], c = .discover ∨ c = .checkpoint := by simp
  obtain ⟨hback, hlater, hagain, -⟩ := Reader.rollback_undoes_read (r := patientReader)
    (p := ⟨owners, 0, []⟩) failing 10 500 rfl hwell rfl rfl hcalls rfl rfl
  refine ⟨_, _, _, _, rfl, rfl, rfl, rfl, rfl, rfl, ?_, hlater, hagain⟩
  obtain ⟨u', hu', hplace, hboundary⟩ := hback 1
    ⟨some "bob", some (.text "bob"), ⟨.integer 5, true, none⟩⟩ rfl
  exact ⟨u', hu', congrArg Prod.fst hplace, hboundary⟩

end Journal

end TableTail
