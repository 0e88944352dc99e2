import TableTail.Proofs.Tail.Cut

/-!
# Tables that stay where they are

A read ends at a page whose last row has no mark, and the unit of the page keeps its place. So it
asks for the same page again, and as long as the database answers the same rows, every read in which
the unit is due fails (`Reader.StallsAt`). This is so for exactly the cells that cannot be read
(`Reader.stallsAt_iff`).
-/

namespace TableTail

namespace Polling

variable {σ α : Type}

/-- A table after reads at some times. -/
def afterReads (r : Reader) (executor : Executor σ) (limit : Nat) (nows : List Nat)
    (p : Polling σ) : Polling σ :=
  nows.foldl (fun p now => (perform r executor (r.read limit now) p).2) p

/-- What a program asks is answered by the database. -/
lemma exists_asked (r : Reader) (executor : Executor σ) (program : Activity α) (p : Polling σ) :
    ∃ entries, (perform r executor program p).2.asked = p.asked ++ entries ∧
      ∀ entry ∈ entries, ∃ database, entry.2 = (executor entry.1 database).1 := by
  induction program generalizing p with
  | done a => exact ⟨[], (List.append_nil _).symm, nofun⟩
  | pause ms next ih => exact ih p
  | ask q next ih =>
    obtain ⟨entries, hasked, hanswered⟩ := ih (answer r executor q p).1 (answer r executor q p).2
    cases q with
    | query q =>
      refine ⟨(q, (executor q p.database).1) :: entries, ?_, ?_⟩
      · exact hasked.trans (List.append_assoc ..)
      · intro entry hentry
        rcases List.mem_cons.1 hentry with rfl | hentry
        · exact ⟨p.database, rfl⟩
        · exact hanswered entry hentry
    | exchange table change =>
      have hsame : (answer r executor (.exchange table change) p).2.asked = p.asked := by
        simp only [answer]
        split <;> rfl
      exact ⟨entries, hsame ▸ hasked, hanswered⟩
    | _ => exact ⟨entries, hasked, hanswered⟩

end Polling

namespace Reader

variable {σ : Type} {r : Reader} {executor : Executor σ} {limit now i : Nat} {p : Polling σ}
  {u : TableUnit} {rows : List Sql.Row} {row : Sql.Row} {cell : Sql.Cell}

/-- A unit of a table stays where it is when the last row of what it is answered has a cell. Each
read in which it is due fails, because of this row or of a unit in front. -/
def StallsAt (r : Reader) (cell : Sql.Cell) : Prop :=
  ∀ (σ : Type) (executor : Executor σ) (limit i : Nat) (p : Polling σ) (u : TableUnit)
    (rows : List Sql.Row) (row : Sql.Row),
    p.cursor.isPartitioned = r.isPartitioned → p.cursor.units[i]? = some u →
    rows.getLast? = some row → row.get? r.incrementLabel = some cell →
    (∀ database, (executor (r.scanOf (max limit 1) u) database).1 = .ok rows) →
    ∀ nows, (p.afterReads r executor limit nows).cursor.units[i]? = some u ∧
      ∀ now, u.isDue r now = true → ∃ x,
        (Polling.perform r executor (r.read limit now)
          (p.afterReads r executor limit nows)).1 = .error x ∧
        (x.cause = r.unreadable ∨ 0 < i)

/-- A visit that asks a unit has an answer of the database. -/
lemma Gone.exists_answer {visits : List Visit} {answer : Except DatabaseError (List Sql.Row)}
    (h : Gone r (max limit 1) now p Batch.empty [] p.cursor.units visits
      (Polling.perform r executor (r.read limit now) p))
    (hunit : p.cursor.units[i]? = some u) (hvisit : visits[i]? = some (.asked answer)) :
    ∃ database, answer = (executor (r.scanOf (max limit 1) u) database).1 := by
  obtain ⟨entries, hentries, hdatabase⟩ := Polling.exists_asked r executor (r.read limit now) p
  have hquestions : r.questions (max limit 1) p.cursor.units visits = entries :=
    List.append_cancel_left (h.asked.symm.trans hentries)
  refine hdatabase (r.scanOf (max limit 1) u, answer) ?_
  rw [← hquestions, questions, List.mem_filterMap]
  refine ⟨(u, .asked answer), ?_, rfl⟩
  exact List.mem_of_getElem? (List.getElem?_zip_eq_some.2 ⟨hunit, hvisit⟩)

/-- A read keeps the place of a unit that is answered a page without a mark. It fails when the unit
is due. -/
lemma read_of_unreadable (now : Nat) (hmode : p.cursor.isPartitioned = r.isPartitioned)
    (hunit : p.cursor.units[i]? = some u)
    (hunusable : r.Unusable (.ok rows) r.unreadable)
    (hanswer : ∀ database, (executor (r.scanOf (max limit 1) u) database).1 = .ok rows) :
    let x := Polling.perform r executor (r.read limit now) p
    x.2.cursor.isPartitioned = r.isPartitioned ∧ x.2.cursor.units[i]? = some u ∧
      (u.isDue r now = true → ∃ stop, x.1 = .error stop ∧ (stop.cause = r.unreadable ∨ 0 < i)) := by
  intro x
  obtain ⟨visits, hgone⟩ := gone_read executor limit now hmode
  obtain ⟨units', hgoes, hunits⟩ := hgone.units
  obtain ⟨visit, hvisit, hafter, hasked⟩ := hgoes.unit hunit
  have hanswered : ∀ answer, visit = .asked answer → answer = .ok rows := by
    rintro answer rfl
    obtain ⟨database, hequal⟩ := hgone.exists_answer hunit hvisit
    exact hequal.trans (hanswer database)
  have hscanned := scanned_eq_error_iff.2 hunusable
  refine ⟨hgone.mode.trans hmode, ?_, ?_⟩
  · rw [hunits, List.nil_append, hafter]
    cases visit with
    | unreached => rfl
    | leftOut => rfl
    | asked answer => simp [TableUnit.afterVisit, hanswered answer rfl, hscanned]
  · intro hdue
    rw [hgone.outcome]
    by_cases hreached : visit = .unreached
    · -- a unit in front was answered what cannot be used
      obtain ⟨j, hj, other, hother, answer, e, rfl, he⟩ := (hgoes.unreached_iff hvisit).1 hreached
      rw [hgoes.ended_eq hother (scanned_eq_error_iff.1 he)]
      exact ⟨_, rfl, .inr (by omega)⟩
    · have hturned := hasked hreached
      rw [hdue] at hturned
      cases visit with
      | unreached => cases hturned
      | leftOut => cases hturned
      | asked answer =>
        obtain rfl := hanswered answer rfl
        rw [hgoes.ended_eq hvisit hunusable]
        exact ⟨_, rfl, .inl rfl⟩

/-- A page whose last row has a cell that cannot be read stops a unit. -/
lemma stallsAt_of_unreadable (hcell : Mark.ofCell? r.kind cell = none) : r.StallsAt cell := by
  intro σ executor limit i p u rows row hmode hunit hlast hrow hanswer nows
  have hunusable : r.Unusable (.ok rows) r.unreadable := by
    refine .unreadable hlast ?_
    rw [markOf?, hrow, Option.bind_some, hcell]
  have hkept : (p.afterReads r executor limit nows).cursor.isPartitioned = r.isPartitioned ∧
      (p.afterReads r executor limit nows).cursor.units[i]? = some u := by
    induction nows generalizing p with
    | nil => exact ⟨hmode, hunit⟩
    | cons now rest ih =>
      obtain ⟨hmode', hunit', -⟩ := read_of_unreadable now hmode hunit hunusable hanswer
      exact ih _ hmode' hunit'
  exact ⟨hkept.2, fun now => (read_of_unreadable now hkept.1 hkept.2 hunusable hanswer).2.2⟩

/-- Exactly the cells that cannot be read stop the units of a table. -/
theorem stallsAt_iff (r : Reader) (cell : Sql.Cell) :
    r.StallsAt cell ↔ Mark.ofCell? r.kind cell = none := by
  refine ⟨fun h => ?_, stallsAt_of_unreadable⟩
  by_contra hread
  obtain ⟨m, hm⟩ := Option.ne_none_iff_exists'.1 hread
  -- a database that only has a row with this cell, and a table with one unit
  have hrow : (⟨[r.incrementLabel], [cell]⟩ : Sql.Row).get? r.incrementLabel = some cell := by
    simp [Sql.Row.get?]
  have hmark : r.markOf? ⟨[r.incrementLabel], [cell]⟩ = some m := by
    rw [markOf?, hrow, Option.bind_some, hm]
  obtain ⟨cursor, u, hmode, hunit, hdue⟩ : ∃ (cursor : Cursor) (u : TableUnit),
      cursor.isPartitioned = r.isPartitioned ∧ cursor.units[0]? = some u ∧
        u.isDue r 0 = true := by
    cases hpartitioned : r.isPartitioned with
    | true =>
      exact ⟨.partitioned (Partitions.empty.insert ⟨"", .null, ⟨m, false, none⟩⟩), _, rfl, rfl, rfl⟩
    | false => exact ⟨.single m none, _, rfl, rfl, rfl⟩
  obtain ⟨-, hfails⟩ := h Unit (fun _ _ => (.ok [⟨[r.incrementLabel], [cell]⟩], ())) 1 0
    ⟨cursor, (), []⟩ u _ _ hmode hunit rfl hrow (fun _ => rfl) []
  obtain ⟨x, hx, -⟩ := hfails 0 hdue
  obtain ⟨visits, hgone⟩ := gone_read (p := ⟨cursor, (), []⟩)
    (fun _ _ => (.ok [⟨[r.incrementLabel], [cell]⟩], ())) 1 0 hmode
  obtain ⟨units', hgoes, -⟩ := hgone.units
  obtain ⟨i, answer, hvisit, hunusable⟩ := exists_of_ended_eq_error (hgone.outcome.symm.trans hx)
  have hi : i < cursor.units.length :=
    hgoes.length_eq.1 ▸ (List.getElem?_eq_some_iff.1 hvisit).1
  obtain ⟨-, rfl⟩ := hgone.exists_answer (List.getElem?_eq_getElem hi) hvisit
  have hscanned := scanned_eq_error_iff.2 hunusable
  simp [scanned, hmark] at hscanned

end Reader

end TableTail
