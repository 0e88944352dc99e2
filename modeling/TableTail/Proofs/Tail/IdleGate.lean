import TableTail.Proofs.Tail.Visits

/-!
# The idle gate over runs

A unit that is polled and has no rows is idle from then on, since its first empty poll and as often
as it was polled in vain since its last rows. What is kept about this is a function of the unit's
visits (`Idle.ofPolls`, `Reader.emptyPolls`): in any run of reads, at any times and with any answers
of the database, each unit that is reached is asked exactly when its wait is over
(`Reader.idle_gate`).

Times are counted in ticks, of which a millisecond has up to `10 ^ 6`. The wait of a policy that is
configured in milliseconds is then never cut down to the longest span.
-/

namespace TableTail

namespace IdlePolicy

/-- Where no longer wait than the longest span is allowed, a wait is the product of interval and
count or the maximum. -/
lemma delay_eq {policy : IdlePolicy} (h : policy.max ≤ longestSpan) (count : Nat) :
    policy.delay count = min (policy.interval * count) policy.max := by
  rw [delay, min_assoc, min_eq_right h]

end IdlePolicy

namespace Idle

/-- The idle state of a unit, given the times of its empty polls since its last rows. -/
def ofPolls : List Nat → Option Idle
  | [] => none
  | first :: rest => some ⟨first, min (rest.length + 1) maxCount⟩

/-- One more empty poll is one more time. -/
lemma afterEmpty_ofPolls (polls : List Nat) (now : Nat) :
    afterEmpty (ofPolls polls) now = ofPolls (polls ++ [now]) := by
  cases polls with
  | nil => rfl
  | cons first rest =>
    have hcount : min (min (rest.length + 1) maxCount + 1) maxCount =
        min ((rest ++ [now]).length + 1) maxCount := by
      rw [List.length_append, List.length_singleton]
      omega
    simp only [ofPolls, afterEmpty, next, hcount, List.cons_append]

/-- The count is the number of empty polls, up to the greatest one. -/
lemma emptyPolls_ofPolls (polls : List Nat) :
    Cursor.emptyPolls (ofPolls polls) = min polls.length maxCount := by
  cases polls with
  | nil => rfl
  | cons first rest => rfl

/-- The idle time begins with the first empty poll. -/
lemma since_ofPolls (polls : List Nat) : (ofPolls polls).map (·.since) = polls.head? := by
  cases polls with
  | nil => rfl
  | cons first rest => rfl

/-- A unit is idle when there are empty polls. -/
lemma isSome_ofPolls (polls : List Nat) : (ofPolls polls).isSome = true ↔ 0 < polls.length := by
  cases polls with
  | nil => simp [ofPolls]
  | cons first rest => simp [ofPolls]

/-- With a policy of milliseconds, a unit is due when it is not idle or when its wait, which is an
exact number of milliseconds, is over. -/
lemma due_iff {interval max ticks : Nat} (hmax : max < 2 ^ 64) (hticks : ticks ≤ 10 ^ 6)
    (state : Option Idle) (now : Nat) :
    due state ⟨interval * ticks, max * ticks⟩ now = true ↔ ∀ idle, state = some idle →
      min (interval * idle.count) max * ticks ≤ now - idle.since := by
  have hspan : max * ticks ≤ IdlePolicy.longestSpan := by
    have hproduct : max * ticks ≤ (2 ^ 64 - 1) * 10 ^ 6 :=
      Nat.mul_le_mul (Nat.le_sub_one_of_lt hmax) hticks
    exact hproduct.trans (by decide)
  cases state with
  | none => simp [due]
  | some idle =>
    have hdelay : IdlePolicy.delay ⟨interval * ticks, max * ticks⟩ idle.count =
        min (interval * idle.count) max * ticks := by
      rw [IdlePolicy.delay_eq hspan, Nat.mul_right_comm, Nat.mul_min_mul_right]
    simp [due, permits, hdelay]

end Idle

namespace Reader

/-- Whether a unit was asked and had no rows. -/
def isEmpty (r : Reader) : Visit → Bool
  | .asked answer =>
    match r.scanned answer with
    | .ok (rows, _) => rows.isEmpty
    | .error _ => false
  | _ => false

/-- Whether a unit was asked and had rows. -/
def isFull (r : Reader) : Visit → Bool
  | .asked answer =>
    match r.scanned answer with
    | .ok (rows, _) => !rows.isEmpty
    | .error _ => false
  | _ => false

/-- The times of the empty polls since the last one with rows, given the visits of a unit with their
times. A poll that failed is neither. -/
def emptyPolls (r : Reader) (visits : List (Nat × Visit)) : List Nat :=
  (((visits.reverse.takeWhile fun v => !r.isFull v.2).filter fun v => r.isEmpty v.2).map
    (·.1)).reverse

variable {r : Reader} {visits : List (Nat × Visit)} {now : Nat} {visit : Visit} {u : TableUnit}

/-- Rows put an end to the empty polls. -/
lemma emptyPolls_concat_of_isFull (h : r.isFull visit = true) :
    r.emptyPolls (visits ++ [(now, visit)]) = [] := by
  simp [emptyPolls, h]

/-- An empty poll is one more. -/
lemma emptyPolls_concat_of_isEmpty (hfull : r.isFull visit = false) (h : r.isEmpty visit = true) :
    r.emptyPolls (visits ++ [(now, visit)]) = r.emptyPolls visits ++ [now] := by
  simp [emptyPolls, hfull, h]

/-- Any other visit leaves the empty polls as they are. -/
lemma emptyPolls_concat_of_neither (hfull : r.isFull visit = false) (h : r.isEmpty visit = false) :
    r.emptyPolls (visits ++ [(now, visit)]) = r.emptyPolls visits := by
  simp [emptyPolls, hfull, h]

/-- A visit keeps a unit's idle state with the unit's empty polls. -/
lemma idle_afterVisit (h : u.progress.idle = Idle.ofPolls (r.emptyPolls visits)) (now : Nat)
    (visit : Visit) :
    (u.afterVisit r now visit).progress.idle =
      Idle.ofPolls (r.emptyPolls (visits ++ [(now, visit)])) := by
  cases visit with
  | unreached => rw [emptyPolls_concat_of_neither rfl rfl, ← h]; rfl
  | leftOut => rw [emptyPolls_concat_of_neither rfl rfl, ← h]; rfl
  | asked answer =>
    cases hscanned : r.scanned answer with
    | error e =>
      have hfull : r.isFull (.asked answer) = false := by simp [isFull, hscanned]
      have hempty : r.isEmpty (.asked answer) = false := by simp [isEmpty, hscanned]
      rw [emptyPolls_concat_of_neither hfull hempty, ← h]
      simp [TableUnit.afterVisit, hscanned]
    | ok scanned =>
      obtain ⟨rows, last⟩ := scanned
      have hlast := last_eq_none_iff hscanned
      cases last with
      | none =>
        obtain rfl := hlast.1 rfl
        have hfull : r.isFull (.asked answer) = false := by simp [isFull, hscanned]
        have hempty : r.isEmpty (.asked answer) = true := by simp [isEmpty, hscanned]
        rw [emptyPolls_concat_of_isEmpty hfull hempty, ← Idle.afterEmpty_ofPolls, ← h]
        simp [TableUnit.afterVisit, hscanned, TableUnit.turn, moveProgress]
      | some m =>
        have hrows : rows ≠ [] := by
          intro hnil
          cases hlast.2 hnil
        have hfull : r.isFull (.asked answer) = true := by simp [isFull, hscanned, hrows]
        rw [emptyPolls_concat_of_isFull hfull]
        simp [TableUnit.afterVisit, hscanned, TableUnit.turn, moveProgress, Idle.ofPolls]

end Reader

/-- A read that has been made: its limit, its time, and what it did with each unit. -/
structure Poll where
  limit : Nat
  now : Nat
  visits : List Visit

/-- The visits of a unit in reads, with their times. -/
def Poll.visitsOf (i : Nat) (history : List Poll) : List (Nat × Visit) :=
  history.filterMap fun poll => (poll.visits[i]?).map (poll.now, ·)

namespace Reader

variable {σ : Type} {r : Reader} {executor : Executor σ}

/-- Reads that have been made one after the other. -/
inductive Recorded (r : Reader) (executor : Executor σ) (start : Polling σ) :
    List Poll → Polling σ → Prop
  | start : Recorded r executor start [] start
  | read {history : List Poll} {limit now : Nat} {visits : List Visit} {p p' : Polling σ}
      (h : Recorded r executor start history p) (hread : r.Visited executor limit now p visits p') :
      Recorded r executor start (history ++ [⟨limit, now, visits⟩]) p'

/-- Any reads can be made, and each unit's idle state is that of its empty polls. -/
theorem exists_recorded (executor : Executor σ) (start : Polling σ)
    (hmode : start.cursor.isPartitioned = r.isPartitioned)
    (hactive : ∀ u ∈ start.cursor.units, u.progress.idle = none) (calls : List (Nat × Nat)) :
    ∃ history p, r.Recorded executor start history p ∧
      history.map (fun poll => (poll.limit, poll.now)) = calls ∧
      p.cursor.isPartitioned = r.isPartitioned ∧
      ∀ (i : Nat) (u : TableUnit), p.cursor.units[i]? = some u →
        u.progress.idle = Idle.ofPolls (r.emptyPolls (Poll.visitsOf i history)) := by
  induction calls using List.reverseRecOn with
  | nil =>
    refine ⟨[], start, .start, rfl, hmode, fun i u hu => ?_⟩
    exact hactive u (List.mem_of_getElem? hu)
  | append_singleton calls call ih =>
    obtain ⟨history, p, hrecorded, hcalls, hmode', hidle⟩ := ih
    obtain ⟨visits, p', hread, hmode'', hlength, hunits⟩ :=
      exists_visited executor call.1 call.2 hmode'
    refine ⟨_, p', hrecorded.read hread, by simp [hcalls], hmode'', fun i u' hu' => ?_⟩
    obtain ⟨u, hu⟩ : ∃ u, p.cursor.units[i]? = some u := by
      have hi : i < p'.cursor.units.length := (List.getElem?_eq_some_iff.1 hu').1
      exact ⟨_, List.getElem?_eq_getElem (hlength ▸ hi)⟩
    obtain ⟨visit, hvisit, hafter, -⟩ := hunits i u hu
    obtain rfl : u' = u.afterVisit r call.2 visit := Option.some.inj (hu'.symm.trans hafter)
    have hvisits : Poll.visitsOf i (history ++ [⟨call.1, call.2, visits⟩]) =
        Poll.visitsOf i history ++ [(call.2, visit)] := by
      simp [Poll.visitsOf, hvisit]
    rw [hvisits]
    exact idle_afterVisit (hidle i u hu) call.2 visit

/-- A table is opened with the policy that it is given, and with its cursor before anything is
read. -/
lemma initialCursor_of_open {root : String} {source : Source} {d : Descriptor} {schema : Schema}
    {policy : IdlePolicy} {c : Cursor}
    (h : (Reader.open root source d schema policy).Returns (.ok (r, c))) :
    r.idlePolicy = policy ∧ (Opening.initialCursor root r).Returns (.ok c) := by
  have hreader : Opening.readerOf source d schema policy = .ok r := (open_keeps h).1
  constructor
  · unfold Opening.readerOf at hreader
    split at hreader
    · cases hreader
    · split at hreader
      · cases hreader
      · obtain rfl := Except.ok.inj hreader
        rfl
  · simp only [Reader.open, hreader, Program.bind_eq] at h
    obtain ⟨outcome, hinitial, h⟩ := Program.returns_bind.1 h
    cases outcome with
    | error e => simp [Program.Returns] at h
    | ok c' =>
      simp only [Program.pure_eq_done, Program.Returns, Except.ok.injEq, Prod.mk.injEq] at h
      obtain ⟨-, rfl⟩ := h
      exact hinitial

/-- No unit of a table that is opened is idle. -/
lemma active_of_open {root : String} {source : Source} {d : Descriptor} {schema : Schema}
    {policy : IdlePolicy} {c : Cursor}
    (h : (Reader.open root source d schema policy).Returns (.ok (r, c))) :
    ∀ u ∈ c.units, u.progress.idle = none := by
  obtain ⟨-, hinitial⟩ := initialCursor_of_open h
  intro u hu
  rcases Opening.initialCursor_cases hinitial with ⟨-, m, -, rfl⟩ | ⟨-, starts, known, -, -, rfl⟩
  · obtain rfl := List.mem_singleton.1 hu
    rfl
  · obtain ⟨p, hp, rfl⟩ := List.mem_map.1 hu
    obtain ⟨added, hadded, hslots⟩ := Partitions.slots_foldl_insert Partitions.empty
      ((known.filter fun k => Opening.admits r.descriptor.cursor k.1).map
        fun k => starts.partition k.1 k.2)
    rw [Opening.partitions, hslots] at hp
    obtain ⟨k, -, rfl⟩ := List.mem_map.1 (hadded.subset (by simpa [Partitions.empty] using hp))
    rfl

/-- The idle gate of a table over any run of reads and one more. A unit's idle count is the number
of its empty polls since its last rows, up to the greatest count; it is idle when there are any,
since the time of the first of them. If the read reaches it, the unit is asked exactly when it is
not idle or the wait for its count has passed; if the unit is not asked, it stays as it is. -/
theorem idle_gate {root : String} {source : Source} {d : Descriptor} {schema : Schema}
    {interval max ticks : Nat} {cursor : Cursor}
    (hopen : (Reader.open root source d schema ⟨interval * ticks, max * ticks⟩).Returns
      (.ok (r, cursor))) (hmax : max < 2 ^ 64) (hticks : ticks ≤ 10 ^ 6) (executor : Executor σ)
    (database : σ) (calls : List (Nat × Nat)) (limit now : Nat) :
    ∃ history p visits p', r.Recorded executor ⟨cursor, database, []⟩ history p ∧
      history.map (fun poll => (poll.limit, poll.now)) = calls ∧
      r.Visited executor limit now p visits p' ∧
      ∀ (i : Nat) (u : TableUnit), p.cursor.units[i]? = some u →
        ∃ visit u', visits[i]? = some visit ∧ p'.cursor.units[i]? = some u' ∧
          Cursor.emptyPolls u.progress.idle =
            min (r.emptyPolls (Poll.visitsOf i history)).length (2 ^ 32 - 1) ∧
          (u.progress.idle.isSome = true ↔ 0 < (r.emptyPolls (Poll.visitsOf i history)).length) ∧
          u.progress.idle.map (·.since) = (r.emptyPolls (Poll.visitsOf i history)).head? ∧
          (visit ≠ .unreached → (visit.isAsked = true ↔ ∀ idle, u.progress.idle = some idle →
            min (interval * idle.count) max * ticks ≤ now - idle.since)) ∧
          (visit.isAsked = false → u' = u) := by
  obtain ⟨hpolicy, -⟩ := initialCursor_of_open hopen
  have hmode : cursor.isPartitioned = r.isPartitioned := (open_keeps hopen).2.mode
  obtain ⟨history, p, hrecorded, hcalls, hmode', hidle⟩ :=
    exists_recorded executor ⟨cursor, database, []⟩ hmode (active_of_open hopen) calls
  obtain ⟨visits, p', hread, -, -, hunits⟩ := exists_visited executor limit now hmode'
  refine ⟨history, p, visits, p', hrecorded, hcalls, hread, fun i u hu => ?_⟩
  obtain ⟨visit, hvisit, hafter, hasked⟩ := hunits i u hu
  refine ⟨visit, _, hvisit, hafter, ?_, ?_, ?_, ?_, ?_⟩
  · rw [hidle i u hu]
    exact Idle.emptyPolls_ofPolls _
  · rw [hidle i u hu]
    exact Idle.isSome_ofPolls _
  · rw [hidle i u hu]
    exact Idle.since_ofPolls _
  · intro hreached
    rw [hasked hreached, TableUnit.isDue, hpolicy]
    exact Idle.due_iff hmax hticks u.progress.idle now
  · intro hnot
    cases visit with
    | unreached => rfl
    | leftOut => rfl
    | asked answer => cases hnot

end Reader

namespace Journal

/-- The journal, whose units wait one second longer after each empty poll, up to a minute. -/
def patientReader : Reader := { reader with idlePolicy := ⟨1000 * 1, 60000 * 1⟩ }

/-- A database that never has rows. -/
def silent : Executor Unit := fun _ database => (.ok [], database)

/-- After reads at the beginning and half a second later, a read after another second asks the
journal's owner exactly when a second, or two, have passed since the first empty poll. -/
theorem idle_gate_journal :
    ∃ history p visits p', patientReader.Recorded silent ⟨opened, (), []⟩ history p ∧
      history.map (fun poll => (poll.limit, poll.now)) = [(10, 0), (10, 500)] ∧
      patientReader.Visited silent 10 1500 p visits p' ∧
      ∀ (i : Nat) (u : TableUnit), p.cursor.units[i]? = some u →
        ∃ visit u', visits[i]? = some visit ∧ p'.cursor.units[i]? = some u' ∧
          Cursor.emptyPolls u.progress.idle =
            min (patientReader.emptyPolls (Poll.visitsOf i history)).length (2 ^ 32 - 1) ∧
          (visit ≠ .unreached → (visit.isAsked = true ↔ ∀ idle, u.progress.idle = some idle →
            min (1000 * idle.count) 60000 * 1 ≤ 1500 - idle.since)) := by
  have hopen : (Reader.open "." source descriptor schema ⟨1000 * 1, 60000 * 1⟩).Returns
      (.ok (patientReader, opened)) :=
    ⟨(.ok none : Except FileError (Option String)),
      (.ok [⟨["identity", "minimum"], [.text "ada", .integer 1]⟩] :
        Except DatabaseError (List Sql.Row)), rfl⟩
  obtain ⟨history, p, visits, p', hrecorded, hcalls, hread, hunits⟩ :=
    Reader.idle_gate hopen (by decide) (by decide) silent () [(10, 0), (10, 500)] 10 1500
  refine ⟨history, p, visits, p', hrecorded, hcalls, hread, fun i u hu => ?_⟩
  obtain ⟨visit, u', hvisit, hu', hcount, -, -, hgate, -⟩ := hunits i u hu
  exact ⟨visit, u', hvisit, hu', hcount, hgate⟩

end Journal

end TableTail
