import TableTail.Proofs.Tail.IdleGate

/-!
# Where a read is cut off

A read ends at the first answer that it cannot use (`Reader.Unusable`): the query failed, or the
last of the rows has no mark. What it leaves is an exact cut (`Reader.CutShort`): the units before
that one are as their visits make them, that unit and those behind it are as they were, and the
batch has the moves and the rows of the units before it. This is proved along the units
(`Reader.Goes.cutShort`), and of the program of the read from there (`Reader.read_cut`).
-/

namespace TableTail

namespace Reader

/-- An answer that a read cannot use, and the error that it ends with: the query failed, or there
are rows and the last one has no mark. -/
inductive Unusable (r : Reader) : Except DatabaseError (List Sql.Row) → DatabaseError → Prop
  | failed (e : DatabaseError) : Unusable r (.error e) e
  | unreadable {rows : List Sql.Row} {row : Sql.Row} (hlast : rows.getLast? = some row)
      (hmark : r.markOf? row = none) : Unusable r (.ok rows) r.unreadable

/-- What a read leaves that is cut off at a unit, and the batch that it gives. -/
structure CutShort (r : Reader) (now : Nat) (units : List TableUnit) (visits : List Visit) (i : Nat)
    (units' : List TableUnit) (b : Batch) : Prop where
  earlier : units'.take i =
    ((units.zip visits).take i).map fun x => x.1.afterVisit r now x.2
  later : units'.drop i = units.drop i
  records : b.records = r.records ((visits.take i).flatMap r.rowsOf)
  advances : b.advances = ((units.zip visits).take i).filterMap fun x => r.moveOf? now x.1 x.2
  queries : b.queries = (units.take (i + 1)).countP fun u => u.isDue r now

variable {r : Reader} {limit now i : Nat} {units units' : List TableUnit} {visits : List Visit}
  {answer : Except DatabaseError (List Sql.Row)} {e : DatabaseError}

/-- A scan fails for the answers that cannot be used. -/
lemma scanned_eq_error_iff : r.scanned answer = .error e ↔ r.Unusable answer e := by
  constructor
  · intro h
    cases answer with
    | error e' =>
      obtain rfl := Except.error.inj h
      exact .failed e'
    | ok rows =>
      unfold scanned at h
      cases hlast : rows.getLast? with
      | none => simp [hlast] at h
      | some row =>
        cases hmark : r.markOf? row with
        | some m => simp [hlast, hmark] at h
        | none =>
          simp only [hlast, hmark, Except.error.injEq] at h
          exact h ▸ .unreadable hlast hmark
  · rintro (_ | ⟨hlast, hmark⟩)
    · rfl
    · simp [scanned, hlast, hmark]

/-- How a read ends does not change its batch. -/
@[simp] lemma given_ended (visits : List Visit) (b : Batch) :
    Usage.given (r.ended visits b) = b := by
  unfold ended
  split <;> rfl

/-- A read that ends with an error was answered what it cannot use. -/
lemma exists_of_ended_eq_error {b : Batch} {x : Interruption}
    (h : r.ended visits b = .error x) :
    ∃ (i : Nat) (answer : Except DatabaseError (List Sql.Row)),
      visits[i]? = some (.asked answer) ∧ r.Unusable answer x.cause := by
  unfold ended at h
  split at h
  · next e he =>
    obtain rfl := Except.error.inj h
    obtain ⟨visit, hvisit, hcause⟩ := List.exists_of_findSome?_eq_some he
    obtain ⟨i, hi⟩ := List.mem_iff_getElem?.1 hvisit
    cases visit with
    | unreached => cases hcause
    | leftOut => cases hcause
    | asked answer =>
      refine ⟨i, answer, hi, scanned_eq_error_iff.1 ?_⟩
      simp only [cause?] at hcause
      split at hcause
      · cases hcause
      · next herror => exact Option.some.inj hcause ▸ herror
  · cases h

/-- Rows are taken where a move is made, and nowhere else. -/
lemma records_eq_nil_iff_advances (limit now : Nat) (units : List TableUnit)
    (visits : List Visit) :
    (r.gathered limit now units visits).records = [] ↔
      (r.gathered limit now units visits).advances = [] := by
  induction units generalizing visits with
  | nil => simp [gathered, Batch.empty]
  | cons u rest ih =>
    cases visits with
    | nil => simp [gathered, Batch.empty]
    | cons visit visits =>
      have hfirst : (r.brought limit now u visit).records = [] ↔
          (r.brought limit now u visit).advances = [] := by
        by_cases hrows : r.rowsOf visit = []
        · simp [brought, moveOf?, hrows, records]
        · simp [brought, moveOf?, hrows, records]
      rw [gathered_cons]
      simp only [Batch.append, List.append_eq_nil_iff, hfirst, ih visits]

namespace Goes

/-- The first answer that cannot be used is the reason why the read ends. -/
lemma ended_eq (h : Goes r now units visits units') (hvisit : visits[i]? = some (.asked answer))
    (hunusable : r.Unusable answer e) (b : Batch) : r.ended visits b = .error ⟨b, e⟩ := by
  have hcause : visits.findSome? r.cause? = some e := by
    induction h generalizing i with
    | nil => cases hvisit
    | leaveOut _ _ ih =>
      cases i with
      | zero => cases hvisit
      | succ i =>
        rw [List.findSome?_cons]
        exact ih hvisit
    | @turn u rest rest' visits answer' rows last _ hscanned _ ih =>
      cases i with
      | zero =>
        cases hvisit
        rw [scanned_eq_error_iff.2 hunusable] at hscanned
        cases hscanned
      | succ i =>
        have hnone : r.cause? (.asked answer') = none := by simp [cause?, hscanned]
        rw [List.findSome?_cons, hnone]
        exact ih hvisit
    | @fail u rest answer' e' _ hscanned =>
      cases i with
      | zero =>
        cases hvisit
        rw [List.findSome?_cons]
        simp [cause?, scanned_eq_error_iff.2 hunusable]
      | succ i => cases List.eq_of_mem_replicate (List.mem_of_getElem? hvisit)
  rw [ended, hcause]

/-- Going over units is cut off exactly at the first answer that cannot be used. -/
theorem cutShort (h : Goes r now units visits units') (hlimit : 0 < limit)
    (hvisit : visits[i]? = some (.asked answer)) (hunusable : r.Unusable answer e) :
    r.CutShort now units visits i units' (r.gathered limit now units visits) := by
  induction h generalizing i with
  | nil => cases hvisit
  | @leaveOut u rest rest' visits hdue _ ih =>
    cases i with
    | zero => cases hvisit
    | succ i =>
      obtain ⟨hearlier, hlater, hrecords, hadvances, hqueries⟩ := ih hvisit
      rw [gathered_cons, brought_of_not_isAsked hlimit rfl, Batch.empty_append]
      refine ⟨?_, hlater, hrecords, hadvances, ?_⟩
      · exact congrArg (u :: ·) hearlier
      · rw [hqueries, List.take_succ_cons, List.countP_cons_of_neg (by simp [hdue])]
  | @turn u rest rest' visits answer' rows last hdue hscanned _ ih =>
    cases i with
    | zero =>
      cases hvisit
      rw [scanned_eq_error_iff.2 hunusable] at hscanned
      cases hscanned
    | succ i =>
      obtain ⟨hearlier, hlater, hrecords, hadvances, hqueries⟩ := ih hvisit
      have hafter : u.afterVisit r now (.asked answer') = u.turn last now := by
        simp [TableUnit.afterVisit, hscanned]
      rw [gathered_cons]
      refine ⟨?_, hlater, ?_, ?_, ?_⟩
      · simp [hafter, hearlier]
      · simp only [Batch.append, brought, hrecords, List.take_succ_cons, List.flatMap_cons, records,
          List.map_append]
      · simp only [Batch.append, brought, hadvances, List.zip_cons_cons, List.take_succ_cons,
          List.filterMap_cons]
        cases r.moveOf? now u (.asked answer') <;> rfl
      · simp only [Batch.append, brought, hqueries, Visit.isAsked, if_true]
        rw [List.take_succ_cons, List.countP_cons_of_pos (by simpa using hdue), Nat.add_comm]
  | @fail u rest answer' e' hdue hscanned =>
    cases i with
    | zero =>
      rw [gathered_cons, gathered_unreached hlimit, Batch.append_empty,
        brought_failed hlimit hscanned]
      refine ⟨rfl, rfl, rfl, rfl, ?_⟩
      simp [Batch.asked, Batch.empty, hdue]
    | succ i => cases List.eq_of_mem_replicate (List.mem_of_getElem? hvisit)

end Goes

variable {σ : Type} {p : Polling σ}

/-- A read that is cut off leaves an exact cut. It asks the units that are due, in their order, up
to the first answer that it cannot use. It then fails for that answer, and exactly then: the units
before have been turned, with one move for each of them that had rows, their rows in order, and one
query for each of them and for the one whose answer could not be used; that unit and those behind it
have not changed. In every batch there are records exactly where there are moves. -/
theorem read_cut (executor : Executor σ) (limit now : Nat)
    (hmode : p.cursor.isPartitioned = r.isPartitioned) :
    ∃ visits p', r.Visited executor limit now p visits p' ∧
      (∀ (i : Nat) (u : TableUnit), p.cursor.units[i]? = some u → ∃ visit,
        visits[i]? = some visit ∧ (visit ≠ .unreached → visit.isAsked = u.isDue r now)) ∧
      (∀ (i : Nat) answer e, visits[i]? = some (.asked answer) → r.Unusable answer e →
        ∃ b, (Polling.perform r executor (r.read limit now) p).1 = .error ⟨b, e⟩ ∧
          r.CutShort now p.cursor.units visits i p'.cursor.units b) ∧
      (∀ x, (Polling.perform r executor (r.read limit now) p).1 = .error x →
        ∃ (i : Nat) (answer : Except DatabaseError (List Sql.Row)),
          visits[i]? = some (.asked answer) ∧ r.Unusable answer x.cause) ∧
      ((Usage.given (Polling.perform r executor (r.read limit now) p).1).records = [] ↔
        (Usage.given (Polling.perform r executor (r.read limit now) p).1).advances = []) := by
  have hlimit : 0 < max limit 1 := by omega
  obtain ⟨visits, hgone⟩ := gone_read executor limit now hmode
  obtain ⟨units', hgoes, hunits⟩ := hgone.units
  refine ⟨visits, _, ⟨rfl, hgoes.length_eq.1, hgone.asked, fun i visit => hgoes.unreached_iff⟩,
    ?_, ?_, ?_, ?_⟩
  · intro i u hu
    obtain ⟨visit, hvisit, -, hasked⟩ := hgoes.unit hu
    exact ⟨visit, hvisit, hasked⟩
  · intro i answer e hvisit hunusable
    rw [hgone.outcome, hgoes.ended_eq hvisit hunusable, hunits, Batch.empty_append]
    exact ⟨_, rfl, hgoes.cutShort hlimit hvisit hunusable⟩
  · intro x hx
    rw [hgone.outcome] at hx
    exact exists_of_ended_eq_error hx
  · rw [hgone.outcome, given_ended, Batch.empty_append]
    exact records_eq_nil_iff_advances (max limit 1) now p.cursor.units visits

end Reader

namespace Journal

/-- Four owners of the journal: the first one is idle, the others are not. -/
def owners : Cursor :=
  .partitioned ([⟨"ada", .text "ada", ⟨.integer 3, false, some ⟨0, 5⟩⟩⟩,
    ⟨"bob", .text "bob", ⟨.integer 5, true, none⟩⟩, ⟨"cleo", .text "cleo", ⟨.integer 4, true, none⟩⟩,
    ⟨"dan", .text "dan", ⟨.integer 9, false, none⟩⟩].foldl Partitions.insert Partitions.empty)

/-- A database that answers an entry at first, then one whose number is missing, and after these
a new owner. -/
def failing : Executor Nat := fun _ n =>
  (if n = 0 then .ok [⟨["id", "owner"], [.integer 5, .text "bob"]⟩]
    else if n = 1 then .ok [⟨["id", "owner"], [.null, .text "cleo"]⟩]
    else .ok [⟨["identity", "minimum"], [.text "eve", .integer 7]⟩], n + 1)

/-- Ada is left out, Bob is turned, Cleo's row cannot be read, and Dan is not reached. -/
theorem read_cut_journal :
    owners.isPartitioned = patientReader.isPartitioned ∧
    (Polling.perform patientReader failing (patientReader.read 10 500) ⟨owners, 0, []⟩).1 =
      .error ⟨⟨patientReader.records [⟨["id", "owner"], [.integer 5, .text "bob"]⟩],
        [⟨some "bob", .integer 5, true, .integer 5⟩], 2, false⟩, patientReader.unreadable⟩ ∧
    ∃ visits p' i answer b, patientReader.Visited failing 10 500 ⟨owners, 0, []⟩ visits p' ∧
      visits[i]? = some (.asked answer) ∧
      patientReader.Unusable answer patientReader.unreadable ∧
      patientReader.CutShort 500 owners.units visits i p'.cursor.units b ∧ b.queries = 2 := by
  have hrun : (Polling.perform patientReader failing (patientReader.read 10 500)
      ⟨owners, 0, []⟩).1 =
        .error ⟨⟨patientReader.records [⟨["id", "owner"], [.integer 5, .text "bob"]⟩],
          [⟨some "bob", .integer 5, true, .integer 5⟩], 2, false⟩, patientReader.unreadable⟩ := rfl
  obtain ⟨visits, p', hvisited, -, hcut, hfails, -⟩ :=
    Reader.read_cut (r := patientReader) (p := ⟨owners, 0, []⟩) failing 10 500 rfl
  obtain ⟨i, answer, hvisit, hunusable⟩ := hfails _ hrun
  obtain ⟨b, hb, hshort⟩ := hcut i answer _ hvisit hunusable
  refine ⟨rfl, hrun, visits, p', i, answer, b, hvisited, hvisit, hunusable, hshort, ?_⟩
  rw [hrun] at hb
  obtain rfl := congrArg Interruption.batch (Except.error.inj hb)
  rfl

end Journal

end TableTail
