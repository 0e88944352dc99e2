import TableTail.Proofs.Tail.Opened
import TableTail.Proofs.Tail.SideBySide
import TableTail.Proofs.Tail.Sweep

/-!
# What a read does with each unit

A read goes over the units of its table in their order. It leaves out a unit that is not due, asks
the others for rows, and stops at the first answer that it cannot use; the units behind that one are
not reached. `Reader.Visited` tells this of a run of the read against any database
(`Executor`): there is a visit for each unit, and the queries that the run asks are those of the
units that were asked, in their order. That a read visits the units in this way, and what it makes
of each of them, is proved along its program (`Reader.exists_visited`).
-/

namespace TableTail

/-- A database that answers queries in any way, with a state of its own. -/
abbrev Executor (σ : Type) : Type := Sql.Query → σ → Except DatabaseError (List Sql.Row) × σ

/-- A table that is polled: its cursor, the state of its database, and what this was asked. -/
structure Polling (σ : Type) where
  cursor : Cursor
  database : σ
  asked : List Asked

/-- What a read does with a unit. -/
inductive Visit
  | unreached
  | leftOut
  | asked (answer : Except DatabaseError (List Sql.Row))

/-- Whether a unit was asked. -/
def Visit.isAsked : Visit → Bool
  | .asked _ => true
  | _ => false

/-- A unit after it was visited. -/
def TableUnit.afterVisit (r : Reader) (now : Nat) (u : TableUnit) : Visit → TableUnit
  | .asked answer =>
    match r.scanned answer with
    | .ok (_, last) => u.turn last now
    | .error _ => u
  | _ => u

namespace Batch

/-- A batch with another one behind it. -/
def append (a b : Batch) : Batch :=
  ⟨a.records ++ b.records, a.advances ++ b.advances, a.queries + b.queries, a.filled || b.filled⟩

@[simp] lemma empty_append (b : Batch) : empty.append b = b := by
  simp [append, empty]

@[simp] lemma append_empty (b : Batch) : b.append empty = b := by
  simp [append, empty]

lemma append_assoc (a b c : Batch) : (a.append b).append c = a.append (b.append c) := by
  simp [append, Nat.add_assoc, Bool.or_assoc]

@[simp] lemma append_empty_asked (b : Batch) : b.append empty.asked = b.asked := by
  simp [append, empty, asked]

end Batch

namespace Polling

variable {σ : Type}

/-- A polling with another cursor. -/
def exchange (change : Cursor → Cursor) (p : Polling σ) : Polling σ :=
  { p with cursor := change p.cursor }

/-- A polling in which the database is asked. -/
def query (executor : Executor σ) (q : Sql.Query) (p : Polling σ) : Polling σ :=
  ⟨p.cursor, (executor q p.database).2, p.asked ++ [(q, (executor q p.database).1)]⟩

/-- The answers of a table and its database, in which nothing else happens. -/
def answer (r : Reader) (executor : Executor σ) :
    (a : Action) → Polling σ → a.Answer × Polling σ
  | .query q, p => ((executor q p.database).1, p.query executor q)
  | .exchange table change, p =>
    (p.cursor, if table = r.name then p.exchange change else p)
  | .describe _, p => (.ok none, p)
  | .load _, p => (.ok none, p)
  | .save _ _, p => (.ok (), p)
  | .enter _, p => ((), p)
  | .leave _, p => ((), p)
  | .emit _, p => (.ok (), p)
  | .clock, p => ((0 : Nat), p)

/-- A program that is run against a table and its database. -/
abbrev perform {α : Type} (r : Reader) (executor : Executor σ) (program : Activity α)
    (p : Polling σ) : α × Polling σ :=
  program.run (answer r executor) (fun _ p => p) p

variable {α : Type} {r : Reader} {executor : Executor σ}

/-- A program that changes the cursor goes on with what the cursor was. -/
lemma perform_exchange (change : Cursor → Cursor) (next : Cursor → Activity α) (p : Polling σ) :
    perform r executor ((Activity.exchange r.name change).bind next) p =
      perform r executor (next p.cursor) (p.exchange change) := by
  have hanswer : answer r executor (.exchange r.name change) p = (p.cursor, p.exchange change) := by
    rw [answer, if_pos rfl]
    rfl
  show (next (answer r executor (.exchange r.name change) p).1).run (answer r executor)
    (fun _ p => p) (answer r executor (.exchange r.name change) p).2 = _
  rw [hanswer]

/-- A program that looks at the cursor goes on with it. -/
lemma perform_look (next : Cursor → Activity α) (p : Polling σ) :
    perform r executor ((Activity.look r.name).bind next) p =
      perform r executor (next p.cursor) p :=
  perform_exchange id next p

/-- A program that asks the database goes on with the answer. -/
lemma perform_query (q : Sql.Query) (next : Except DatabaseError (List Sql.Row) → Activity α)
    (p : Polling σ) :
    perform r executor ((Activity.query q).bind next) p =
      perform r executor (next (executor q p.database).1) (p.query executor q) := rfl

/-- A program inside the table does what it does on its own. -/
lemma perform_inside (program : Activity α) (p : Polling σ) :
    perform r executor (Activity.inside r.name program) p = perform r executor program p := by
  simp only [perform, Activity.inside, Program.bind_eq, Program.run_bind, Program.run, answer]
  rfl

end Polling

namespace Reader

variable {σ : Type}

/-- The query of a unit, with its answer, if the unit is asked. -/
def question? (r : Reader) (limit : Nat) (u : TableUnit) : Visit → Option Asked
  | .asked answer => some (r.scanOf limit u, answer)
  | _ => none

/-- The queries of units that are visited, with their answers. -/
def questions (r : Reader) (limit : Nat) (units : List TableUnit) (visits : List Visit) :
    List Asked :=
  (units.zip visits).filterMap fun x => r.question? limit x.1 x.2

/-- The rows that a visit takes: those of an answer that can be used. -/
def rowsOf (r : Reader) : Visit → List Sql.Row
  | .asked answer =>
    match r.scanned answer with
    | .ok (rows, _) => rows
    | .error _ => []
  | _ => []

/-- The move of a unit whose visit takes rows: from where it was to where the visit leaves it. -/
def moveOf? (r : Reader) (now : Nat) (u : TableUnit) (visit : Visit) : Option Advance :=
  if (r.rowsOf visit).isEmpty then none
  else some ⟨u.name, u.progress.after, u.progress.unread, (u.afterVisit r now visit).progress.after⟩

/-- What a unit gives that is visited. -/
def brought (r : Reader) (limit now : Nat) (u : TableUnit) (visit : Visit) : Batch :=
  ⟨r.records (r.rowsOf visit), (r.moveOf? now u visit).toList, if visit.isAsked then 1 else 0,
    limit ≤ (r.rowsOf visit).length⟩

/-- What units give that are visited one after the other. -/
def gathered (r : Reader) (limit now : Nat) (units : List TableUnit) (visits : List Visit) :
    Batch :=
  ((units.zip visits).map fun x => r.brought limit now x.1 x.2).foldr Batch.append Batch.empty

/-- Why the answer of a visit cannot be used. -/
def cause? (r : Reader) : Visit → Option DatabaseError
  | .asked answer =>
    match r.scanned answer with
    | .ok _ => none
    | .error e => some e
  | _ => none

/-- How a read ends that has visited units: it is cut off by the answer that cannot be used. -/
def ended (r : Reader) (visits : List Visit) (b : Batch) : Except Interruption Batch :=
  match visits.findSome? r.cause? with
  | some e => .error ⟨b, e⟩
  | none => .ok b

/-- A visit at which the unit's answer cannot be used. -/
def Fails (r : Reader) (visit : Visit) : Prop :=
  ∃ answer e, visit = .asked answer ∧ r.scanned answer = .error e

/-- A visit fails before a place. -/
def Cut (r : Reader) (visits : List Visit) (i : Nat) : Prop :=
  ∃ j < i, ∃ visit, visits[j]? = some visit ∧ r.Fails visit

/-- A read that visits the units of a table: it asks the queries of the units that are asked, in
their order, and does not reach the units behind one whose answer it cannot use. -/
structure Visited (r : Reader) (executor : Executor σ) (limit now : Nat) (p : Polling σ)
    (visits : List Visit) (p' : Polling σ) : Prop where
  run : (Polling.perform r executor (r.read limit now) p).2 = p'
  length : visits.length = p.cursor.units.length
  asked : p'.asked = p.asked ++ r.questions (max limit 1) p.cursor.units visits
  unreached : ∀ i visit, visits[i]? = some visit → (visit = .unreached ↔ r.Cut visits i)

/-- Going over units in their order: what is done with each of them, and what becomes of them. -/
inductive Goes (r : Reader) (now : Nat) : List TableUnit → List Visit → List TableUnit → Prop
  | nil : Goes r now [] [] []
  | leaveOut {u : TableUnit} {rest rest' : List TableUnit} {visits : List Visit}
      (hdue : u.isDue r now = false) (hrest : Goes r now rest visits rest') :
      Goes r now (u :: rest) (.leftOut :: visits) (u :: rest')
  | turn {u : TableUnit} {rest rest' : List TableUnit} {visits : List Visit}
      {answer : Except DatabaseError (List Sql.Row)} {rows : List Sql.Row} {last : Option Mark}
      (hdue : u.isDue r now = true) (hscanned : r.scanned answer = .ok (rows, last))
      (hrest : Goes r now rest visits rest') :
      Goes r now (u :: rest) (.asked answer :: visits) (u.turn last now :: rest')
  | fail {u : TableUnit} {rest : List TableUnit} {answer : Except DatabaseError (List Sql.Row)}
      {e : DatabaseError} (hdue : u.isDue r now = true) (hscanned : r.scanned answer = .error e) :
      Goes r now (u :: rest) (.asked answer :: .replicate rest.length .unreached) (u :: rest)

section Goes

variable {r : Reader} {limit now i : Nat} {units units' : List TableUnit} {visits : List Visit}
  {u : TableUnit} {visit : Visit}

/-- No query is asked of units that are not reached. -/
lemma questions_unreached (limit : Nat) (units : List TableUnit) :
    r.questions limit units (.replicate units.length .unreached) = [] := by
  induction units with
  | nil => rfl
  | cons u rest ih => exact ih

/-- A scan has a last mark when it has rows. -/
lemma last_eq_none_iff {answer : Except DatabaseError (List Sql.Row)} {rows : List Sql.Row}
    {last : Option Mark} (h : r.scanned answer = .ok (rows, last)) : last = none ↔ rows = [] := by
  unfold scanned at h
  cases answer with
  | error e => cases h
  | ok rows' =>
    simp only at h
    cases hlast : rows'.getLast? with
    | none =>
      obtain ⟨rfl, rfl⟩ := Prod.mk.inj (Except.ok.inj (by simpa only [hlast] using h))
      simpa using hlast
    | some row =>
      have hne : rows' ≠ [] := by
        rintro rfl
        cases hlast
      cases hmark : r.markOf? row with
      | none => simp [hlast, hmark] at h
      | some m =>
        simp only [hlast, hmark, Except.ok.injEq, Prod.mk.injEq] at h
        obtain ⟨rfl, rfl⟩ := h
        simp [hne]

/-- A visit whose answer can be used takes its rows, and moves the unit to the last one's mark. -/
lemma rowsOf_asked {answer : Except DatabaseError (List Sql.Row)} {rows : List Sql.Row}
    {last : Option Mark} (h : r.scanned answer = .ok (rows, last)) (now : Nat) (u : TableUnit) :
    r.rowsOf (.asked answer) = rows ∧ r.moveOf? now u (.asked answer) =
      last.map fun m => ⟨u.name, u.progress.after, u.progress.unread, m⟩ := by
  have hrows : r.rowsOf (.asked answer) = rows := by simp [rowsOf, h]
  refine ⟨hrows, ?_⟩
  have hlast := last_eq_none_iff h
  rw [moveOf?, hrows]
  cases last with
  | none =>
    rw [hlast.1 rfl]
    rfl
  | some m =>
    have hsome : rows.isEmpty = false := by
      rw [Bool.eq_false_iff, ne_eq, List.isEmpty_iff, ← hlast]
      simp
    simp [hsome, TableUnit.afterVisit, h, TableUnit.turn, moveProgress]

/-- A unit whose answer can be used gives its rows and its move, for one query. -/
lemma append_brought {answer : Except DatabaseError (List Sql.Row)} {rows : List Sql.Row}
    {last : Option Mark} (h : r.scanned answer = .ok (rows, last)) (b : Batch) (u : TableUnit) :
    b.append (r.brought limit now u (.asked answer)) = b.asked.add (r.records rows)
      (last.map fun m => ⟨u.name, u.progress.after, u.progress.unread, m⟩)
      (limit ≤ rows.length) := by
  obtain ⟨hrows, hmove⟩ := rowsOf_asked h now u
  rw [brought, hrows, hmove]
  rfl

/-- A unit whose answer cannot be used gives its query only. -/
lemma brought_failed (hlimit : 0 < limit) {answer : Except DatabaseError (List Sql.Row)}
    {e : DatabaseError} (h : r.scanned answer = .error e) (u : TableUnit) :
    r.brought limit now u (.asked answer) = Batch.empty.asked := by
  have hrows : r.rowsOf (.asked answer) = [] := by simp [rowsOf, h]
  simp [brought, moveOf?, hrows, Visit.isAsked, records, Batch.empty, Batch.asked, hlimit.ne']

/-- A unit that is not asked gives nothing. -/
lemma brought_of_not_isAsked (hlimit : 0 < limit) (h : visit.isAsked = false) (u : TableUnit) :
    r.brought limit now u visit = Batch.empty := by
  have hrows : r.rowsOf visit = [] := by
    cases visit with
    | unreached => rfl
    | leftOut => rfl
    | asked answer => cases h
  simp [brought, moveOf?, hrows, h, records, Batch.empty, hlimit.ne']

/-- The first unit gives what it gives before the others. -/
lemma gathered_cons (u : TableUnit) (rest : List TableUnit) (visit : Visit) (visits : List Visit) :
    r.gathered limit now (u :: rest) (visit :: visits) =
      (r.brought limit now u visit).append (r.gathered limit now rest visits) := rfl

/-- The moves that are given are those of the units, in their order. -/
lemma advances_gathered (limit now : Nat) (units : List TableUnit) (visits : List Visit) :
    (r.gathered limit now units visits).advances =
      (units.zip visits).filterMap fun x => r.moveOf? now x.1 x.2 := by
  unfold gathered
  induction units.zip visits with
  | nil => rfl
  | cons x rest ih =>
    rw [List.map_cons, List.foldr_cons, List.filterMap_cons, ← ih]
    cases hmove : r.moveOf? now x.1 x.2 <;> simp [Batch.append, brought, hmove]

/-- Units that are not reached give nothing. -/
lemma gathered_unreached (hlimit : 0 < limit) (units : List TableUnit) :
    r.gathered limit now units (.replicate units.length .unreached) = Batch.empty := by
  induction units with
  | nil => rfl
  | cons u rest ih =>
    rw [List.length_cons, List.replicate_succ, gathered_cons, ih,
      brought_of_not_isAsked hlimit rfl]
    rfl

/-- Nothing fails before the first place. -/
lemma not_cut_zero : ¬ r.Cut visits 0 := by
  rintro ⟨j, hj, -⟩
  exact absurd hj (Nat.not_lt_zero j)

/-- A visit fails before a later place if the first one does, or one of the others. -/
lemma cut_cons_succ : r.Cut (visit :: visits) (i + 1) ↔ r.Fails visit ∨ r.Cut visits i := by
  constructor
  · rintro ⟨_ | j, hj, found, hfound, hfails⟩
    · obtain rfl := Option.some.inj hfound
      exact .inl hfails
    · exact .inr ⟨j, Nat.lt_of_succ_lt_succ hj, found, hfound, hfails⟩
  · rintro (hfails | ⟨j, hj, found, hfound, hfails⟩)
    · exact ⟨0, Nat.succ_pos i, visit, rfl, hfails⟩
    · exact ⟨j + 1, Nat.succ_lt_succ hj, found, hfound, hfails⟩

/-- There is a visit for each unit, and no unit comes or goes. -/
lemma Goes.length_eq (h : Goes r now units visits units') :
    visits.length = units.length ∧ units'.length = units.length := by
  induction h with
  | nil => exact ⟨rfl, rfl⟩
  | leaveOut _ _ ih => simp [ih]
  | turn _ _ _ ih => simp [ih]
  | fail _ _ => simp

/-- Each unit stays the unit that it is. -/
lemma Goes.map_place (h : Goes r now units visits units') :
    units'.map (·.place) = units.map (·.place) := by
  induction h with
  | nil => rfl
  | leaveOut _ _ ih => rw [List.map_cons, List.map_cons, ih]
  | turn _ _ _ ih => rw [List.map_cons, List.map_cons, ih, TableUnit.turn_place]
  | fail _ _ => rfl

/-- The units that are not reached are those behind one whose answer cannot be used. -/
lemma Goes.unreached_iff (h : Goes r now units visits units') (hvisit : visits[i]? = some visit) :
    visit = .unreached ↔ r.Cut visits i := by
  induction h generalizing i with
  | nil => cases hvisit
  | leaveOut _ _ ih =>
    cases i with
    | zero =>
      obtain rfl := Option.some.inj hvisit
      simp [not_cut_zero]
    | succ i =>
      have hnot : ¬ r.Fails .leftOut := by
        rintro ⟨answer, e, heq, -⟩
        cases heq
      rw [cut_cons_succ, or_iff_right hnot]
      exact ih hvisit
  | @turn u rest rest' visits answer rows last _ hscanned _ ih =>
    cases i with
    | zero =>
      obtain rfl := Option.some.inj hvisit
      simp [not_cut_zero]
    | succ i =>
      have hnot : ¬ r.Fails (.asked answer) := by
        rintro ⟨answer', e, heq, herror⟩
        cases heq
        rw [hscanned] at herror
        cases herror
      rw [cut_cons_succ, or_iff_right hnot]
      exact ih hvisit
  | @fail u rest answer e _ hscanned =>
    cases i with
    | zero =>
      obtain rfl := Option.some.inj hvisit
      simp [not_cut_zero]
    | succ i =>
      have hlast : visit = .unreached := List.eq_of_mem_replicate (List.mem_of_getElem? hvisit)
      exact iff_of_true hlast (cut_cons_succ.2 (.inl ⟨answer, e, rfl, hscanned⟩))

/-- Each unit becomes what its visit makes of it, and one that is reached is asked if it is due. -/
lemma Goes.unit (h : Goes r now units visits units') (hu : units[i]? = some u) :
    ∃ visit, visits[i]? = some visit ∧ units'[i]? = some (u.afterVisit r now visit) ∧
      (visit ≠ .unreached → visit.isAsked = u.isDue r now) := by
  induction h generalizing i with
  | nil => cases hu
  | leaveOut hdue _ ih =>
    cases i with
    | zero =>
      obtain rfl := Option.some.inj hu
      exact ⟨.leftOut, rfl, rfl, fun _ => hdue.symm⟩
    | succ i => exact ih hu
  | turn hdue hscanned _ ih =>
    cases i with
    | zero =>
      obtain rfl := Option.some.inj hu
      exact ⟨.asked _, rfl, by simp [TableUnit.afterVisit, hscanned], fun _ => hdue.symm⟩
    | succ i => exact ih hu
  | @fail v rest answer e hdue hscanned =>
    cases i with
    | zero =>
      obtain rfl := Option.some.inj hu
      exact ⟨.asked _, rfl, by simp [TableUnit.afterVisit, hscanned], fun _ => hdue.symm⟩
    | succ i =>
      have hi : i < rest.length := Nat.lt_of_succ_lt_succ (List.getElem?_eq_some_iff.1 hu).1
      refine ⟨.unreached, ?_, hu, fun hne => absurd rfl hne⟩
      exact List.getElem?_replicate_of_lt hi

end Goes

section Programs

variable {r : Reader} {executor : Executor σ} {limit now : Nat} {p p' : Polling σ}

/-- What has become of a polling and a batch when some units behind others have been gone over. -/
structure Gone (r : Reader) (limit now : Nat) (p : Polling σ) (b : Batch)
    (before todo : List TableUnit) (visits : List Visit)
    (x : Except Interruption Batch × Polling σ) : Prop where
  units : ∃ todo', Goes r now todo visits todo' ∧ x.2.cursor.units = before ++ todo'
  asked : x.2.asked = p.asked ++ r.questions limit todo visits
  mode : x.2.cursor.isPartitioned = p.cursor.isPartitioned
  outcome : x.1 = r.ended visits (b.append (r.gathered limit now todo visits))

namespace Gone

variable {before rest : List TableUnit} {u : TableUnit} {visits : List Visit} {b : Batch}
  {answer : Except DatabaseError (List Sql.Row)} {p₁ : Polling σ}
  {x : Except Interruption Batch × Polling σ}

/-- Where there is no unit, nothing is done. -/
lemma nil (hunits : p.cursor.units = before) (b : Batch) :
    Gone r limit now p b before [] [] (.ok b, p) := by
  refine ⟨⟨[], .nil, by simpa using hunits⟩, by simp [questions], rfl, ?_⟩
  simp [ended, gathered]

/-- A unit that is not due is left out. -/
lemma leaveOut (hlimit : 0 < limit) (h : Gone r limit now p b (before ++ [u]) rest visits x)
    (hdue : u.isDue r now = false) :
    Gone r limit now p b before (u :: rest) (.leftOut :: visits) x := by
  obtain ⟨rest', hgoes, hunits⟩ := h.units
  refine ⟨⟨u :: rest', .leaveOut hdue hgoes, by simpa using hunits⟩, h.asked, h.mode, ?_⟩
  rw [gathered_cons, brought_of_not_isAsked hlimit rfl, Batch.empty_append]
  exact h.outcome

/-- A unit that answers is turned. -/
lemma turn {rows : List Sql.Row} {last : Option Mark}
    (h : Gone r limit now p₁ (b.asked.add (r.records rows)
      (last.map fun m => ⟨u.name, u.progress.after, u.progress.unread, m⟩)
      (limit ≤ rows.length)) (before ++ [u.turn last now]) rest visits x)
    (hdue : u.isDue r now = true) (hscanned : r.scanned answer = .ok (rows, last))
    (hasked : p₁.asked = p.asked ++ [(r.scanOf limit u, answer)])
    (hmode : p₁.cursor.isPartitioned = p.cursor.isPartitioned) :
    Gone r limit now p b before (u :: rest) (.asked answer :: visits) x := by
  obtain ⟨rest', hgoes, hunits⟩ := h.units
  refine ⟨⟨_, .turn hdue hscanned hgoes, by simpa using hunits⟩, ?_, h.mode.trans hmode, ?_⟩
  · rw [h.asked, hasked, List.append_assoc]
    rfl
  · have hcause : r.cause? (.asked answer) = none := by simp [cause?, hscanned]
    rw [gathered_cons, ← Batch.append_assoc, append_brought hscanned, ended, List.findSome?_cons,
      hcause]
    exact h.outcome

/-- Behind a unit whose answer cannot be used no unit is reached. -/
lemma fail (hlimit : 0 < limit) {e : DatabaseError} (hunits : p₁.cursor.units = before ++ u :: rest)
    (hdue : u.isDue r now = true) (hscanned : r.scanned answer = .error e)
    (hasked : p₁.asked = p.asked ++ [(r.scanOf limit u, answer)])
    (hmode : p₁.cursor.isPartitioned = p.cursor.isPartitioned) :
    Gone r limit now p b before (u :: rest)
      (.asked answer :: .replicate rest.length .unreached) (.error ⟨b.asked, e⟩, p₁) := by
  refine ⟨⟨_, .fail hdue hscanned, hunits⟩, ?_, hmode, ?_⟩
  · have hquestions : r.questions limit (u :: rest)
        (.asked answer :: .replicate rest.length .unreached) =
          (r.scanOf limit u, answer) ::
            r.questions limit rest (.replicate rest.length .unreached) := rfl
    rw [hasked, hquestions, questions_unreached]
  · have hcause : r.cause? (.asked answer) = some e := by simp [cause?, hscanned]
    rw [ended, List.findSome?_cons, hcause, gathered_cons, gathered_unreached hlimit,
      brought_failed hlimit hscanned, Batch.append_empty, Batch.append_empty_asked]

/-- A unit that is due is scanned: the program ends when it cannot use the answer, and otherwise
turns the unit and goes over those behind it. -/
lemma scan (hlimit : 0 < limit)
    {next : Except DatabaseError (List Sql.Row) → Activity (Except Interruption Batch)}
    {q : Sql.Query} (hq : q = r.scanOf limit u) (hunits : p.cursor.units = before ++ u :: rest)
    (hdue : u.isDue r now = true)
    (hfail : ∀ answer e (p₁ : Polling σ), r.scanned answer = .error e →
      Polling.perform r executor (next answer) p₁ = (.error ⟨b.asked, e⟩, p₁))
    (hturn : ∀ answer rows last (p₁ : Polling σ), r.scanned answer = .ok (rows, last) →
      p₁.cursor = p.cursor → ∃ change : Cursor → Cursor, ∃ visits,
        (change p.cursor).isPartitioned = p.cursor.isPartitioned ∧
        Gone r limit now (p₁.exchange change) (b.asked.add (r.records rows)
          (last.map fun m => ⟨u.name, u.progress.after, u.progress.unread, m⟩)
          (limit ≤ rows.length)) (before ++ [u.turn last now]) rest visits
          (Polling.perform r executor (next answer) p₁)) :
    ∃ visits, Gone r limit now p b before (u :: rest) visits
      (Polling.perform r executor ((Activity.query q).bind next) p) := by
  subst hq
  rw [Polling.perform_query]
  have hcursor : (p.query executor (r.scanOf limit u)).cursor = p.cursor := rfl
  have hasked : (p.query executor (r.scanOf limit u)).asked =
      p.asked ++ [(r.scanOf limit u, (executor (r.scanOf limit u) p.database).1)] := rfl
  generalize p.query executor (r.scanOf limit u) = p₁ at hcursor hasked ⊢
  generalize (executor (r.scanOf limit u) p.database).1 = answer at hasked ⊢
  have hmode : p₁.cursor.isPartitioned = p.cursor.isPartitioned := by rw [hcursor]
  cases hscanned : r.scanned answer with
  | error e =>
    rw [hfail answer e p₁ hscanned]
    exact ⟨_, .fail hlimit (by rw [hcursor, hunits]) hdue hscanned hasked hmode⟩
  | ok scanned =>
    obtain ⟨rows, last⟩ := scanned
    obtain ⟨change, visits, hchange, hgone⟩ := hturn answer rows last p₁ hscanned hcursor
    have hmode' : (p₁.exchange change).cursor.isPartitioned = p.cursor.isPartitioned := by
      rw [← hchange, ← hcursor]
      rfl
    exact ⟨_, hgone.turn hdue hscanned hasked hmode'⟩

end Gone

/-- The slots that are left are gone over one after the other. -/
lemma gone_readSlots (hlimit : 0 < limit) {before todo : List TableUnit}
    (hmode : p.cursor.isPartitioned = true) (hunits : p.cursor.units = before ++ todo) (b : Batch) :
    ∃ visits, Gone r limit now p b before todo visits
      (Polling.perform r executor (r.readSlots limit now todo.length before.length b) p) := by
  induction todo generalizing before p b with
  | nil => exact ⟨[], .nil (by simpa using hunits) b⟩
  | cons u rest ih =>
    have hunit : p.cursor.units[before.length]? = some u := by simp [hunits]
    rw [Cursor.units_getElem?_of_isPartitioned hmode] at hunit
    obtain ⟨⟨identity, param, progress⟩, hslot, rfl⟩ := Option.map_eq_some_iff.1 hunit
    rw [List.length_cons, readSlots, Program.bind_eq, Polling.perform_look, hslot]
    by_cases hdue : Idle.due progress.idle r.idlePolicy now = true
    · simp only [hdue, if_true]
      refine Gone.scan hlimit rfl hunits hdue ?_ ?_
      · intro answer e p₁ hscanned
        simp only [hscanned]
        rfl
      · intro answer rows last p₁ hscanned hcursor
        simp only [hscanned]
        rw [Program.bind_eq, Polling.perform_exchange]
        have hmode' : (moveSlot before.length last now p.cursor).isPartitioned =
            p.cursor.isPartitioned := Cursor.isPartitioned_moveSlot ..
        have hunits' : (moveSlot before.length last now p₁.cursor).units =
            before ++ [(Partition.unit ⟨identity, param, progress⟩).turn last now] ++ rest := by
          rw [hcursor, Cursor.units_moveSlot hmode, hunits, List.modify_eq_take_drop]
          simp
        have hmode₁ : (moveSlot before.length last now p₁.cursor).isPartitioned = true := by
          rw [hcursor]
          exact hmode'.trans hmode
        obtain ⟨visits, hgone⟩ := ih (p := p₁.exchange (moveSlot before.length last now)) hmode₁
          hunits' (b.asked.add (r.records rows)
            (last.map fun m => ⟨some identity, progress.after, progress.unread, m⟩)
            (limit ≤ rows.length))
        rw [List.length_append] at hgone
        exact ⟨_, visits, hmode', hgone⟩
    · simp only [hdue]
      have hunits' : p.cursor.units =
          before ++ [Partition.unit ⟨identity, param, progress⟩] ++ rest := by simpa using hunits
      obtain ⟨visits, hgone⟩ := ih hmode hunits' b
      rw [List.length_append] at hgone
      exact ⟨_, hgone.leaveOut hlimit (Bool.eq_false_of_not_eq_true hdue)⟩

/-- A single mark is gone over as the only unit. -/
lemma gone_readSingle (hlimit : 0 < limit) (hmode : p.cursor.isPartitioned = false) :
    ∃ visits, Gone r limit now p Batch.empty [] p.cursor.units visits
      (Polling.perform r executor (r.readSingle limit now) p) := by
  rw [readSingle, Program.bind_eq, Polling.perform_look]
  cases hcursor : p.cursor with
  | partitioned ps =>
    rw [hcursor] at hmode
    cases hmode
  | single after idle =>
    have hunits : p.cursor.units = [] ++ ⟨none, none, ⟨after, false, idle⟩⟩ :: [] := by
      rw [hcursor]
      rfl
    by_cases hdue : Idle.due idle r.idlePolicy now = true
    · simp only [hdue, if_true]
      refine Gone.scan hlimit rfl hunits hdue ?_ ?_
      · intro answer e p₁ hscanned
        simp only [hscanned]
        rfl
      · intro answer rows last p₁ hscanned hcursor₁
        simp only [hscanned]
        rw [Program.bind_eq, Polling.perform_exchange]
        refine ⟨moveSingle last now, [], Cursor.isPartitioned_moveSingle .., .nil ?_ _⟩
        show (moveSingle last now p₁.cursor).units = _
        rw [hcursor₁, Cursor.units_moveSingle hmode, hunits]
        rfl
    · simp only [hdue]
      have hgone : Gone r limit now p Batch.empty ([] ++ [⟨none, none, ⟨after, false, idle⟩⟩]) [] []
          (.ok Batch.empty, p) := .nil hunits Batch.empty
      exact ⟨_, hgone.leaveOut hlimit (Bool.eq_false_of_not_eq_true hdue)⟩

/-- All units are gone over by a read. -/
theorem gone_read (executor : Executor σ) (limit now : Nat)
    (hmode : p.cursor.isPartitioned = r.isPartitioned) :
    ∃ visits, Gone r (max limit 1) now p Batch.empty [] p.cursor.units visits
      (Polling.perform r executor (r.read limit now) p) := by
  have hlimit : 0 < max limit 1 := by omega
  rw [read, Polling.perform_inside]
  by_cases hpartitioned : r.isPartitioned = true
  · rw [if_pos hpartitioned, readPartitions, Program.bind_eq, Polling.perform_look]
    have hmode' := hmode.trans hpartitioned
    rw [← Cursor.length_units_of_isPartitioned hmode']
    exact gone_readSlots hlimit hmode' (List.nil_append _).symm Batch.empty
  · rw [if_neg hpartitioned]
    exact gone_readSingle hlimit (hmode.trans (Bool.eq_false_of_not_eq_true hpartitioned))

/-- A read visits the units of its table, and each of them becomes what its visit makes of it. One
that is reached is asked if it is due. -/
theorem exists_visited (executor : Executor σ) (limit now : Nat)
    (hmode : p.cursor.isPartitioned = r.isPartitioned) :
    ∃ visits p', r.Visited executor limit now p visits p' ∧
      p'.cursor.isPartitioned = r.isPartitioned ∧
      p'.cursor.units.length = p.cursor.units.length ∧
      ∀ (i : Nat) (u : TableUnit), p.cursor.units[i]? = some u → ∃ visit, visits[i]? = some visit ∧
        p'.cursor.units[i]? = some (u.afterVisit r now visit) ∧
        (visit ≠ .unreached → visit.isAsked = u.isDue r now) := by
  obtain ⟨visits, hgone⟩ := gone_read executor limit now hmode
  obtain ⟨units', hgoes, hunits⟩ := hgone.units
  refine ⟨visits, _, ⟨rfl, hgoes.length_eq.1, hgone.asked, ?_⟩, hgone.mode.trans hmode, ?_, ?_⟩
  · intro i visit hvisit
    exact hgoes.unreached_iff hvisit
  · rw [hunits]
    exact hgoes.length_eq.2
  · intro i u hu
    rw [hunits]
    exact hgoes.unit hu

end Programs

end Reader

end TableTail
