import TableTail.Proofs.Process.Ensures
import TableTail.Proofs.Tail.MarkText
import TableTail.Proofs.Tail.Units
import TableTail.Tail.Discovery
import TableTail.Tail.Rollback

/-!
# The usage of an open table

An open table is read, batches that its reads gave are rolled back, and identities are discovered,
in any number and side by side, whatever the database answers (`Usage.Run`). All of this keeps its
cursor as its reader keeps it (`Reader.Keeps`): well-formed, in the reader's mode, and with regular
marks of the reader's kind (`Usage.Invariant.run`).

Databases answer regular rows: their timestamps are made from counts of microseconds, in which there
are no leap seconds, or are kept as texts.
-/

namespace TableTail

/-- A row without irregular timestamps. -/
def Sql.Row.IsRegular (row : Sql.Row) : Prop := ∀ c ∈ row.cells, c.IsRegular

/-- What a database can answer to a query: an error, or any number of regular rows. -/
def Sql.Answerable (answer : Except DatabaseError (List Sql.Row)) : Prop :=
  ∀ rows, answer = .ok rows → ∀ row ∈ rows, row.IsRegular

/-- What is looked up in a regular row is regular. -/
lemma Sql.Row.IsRegular.of_get? {row : Sql.Row} {label : String} {c : Sql.Cell}
    (h : row.IsRegular) (hc : row.get? label = some c) : c.IsRegular := by
  obtain ⟨i, -, hi⟩ := Option.bind_eq_some_iff.1 hc
  exact h c (List.mem_of_getElem? hi)

/-- A cursor as a reader keeps it. -/
structure Reader.Keeps (r : Reader) (c : Cursor) : Prop where
  wellFormed : c.WellFormed
  mode : c.isPartitioned = r.isPartitioned
  marks : ∀ u ∈ c.units, u.progress.after.OfKind r.kind

/-- A batch as a reader gives it. -/
structure Reader.Gives (r : Reader) (b : Batch) : Prop where
  marks : ∀ a ∈ b.advances, a.before.OfKind r.kind
  single : ∀ a ∈ b.advances, a.unit = none → a.wasUnread = false

namespace Reader

variable {r : Reader} {c : Cursor} {b : Batch}

namespace Keeps

/-- A unit that is scanned keeps a mark of the kind. -/
lemma ofKind_of_modify {last : Option Mark} {now i : Nat} {u : TableUnit} (h : r.Keeps c)
    (hlast : ∀ m ∈ last, m.OfKind r.kind) (hu : u ∈ c.units.modify i (TableUnit.turn last now)) :
    u.progress.after.OfKind r.kind := by
  obtain ⟨j, hj⟩ := List.mem_iff_getElem?.1 hu
  rw [List.getElem?_modify] at hj
  obtain ⟨v, hv, hmoved⟩ := Option.map_eq_some_iff.1 hj
  have hmark := h.marks v (List.mem_of_getElem? hv)
  split at hmoved
  · subst hmoved
    cases last with
    | none => exact hmark
    | some m => exact hlast m rfl
  · exact hmoved ▸ hmark

/-- A scan of a single mark keeps the cursor. -/
lemma moveSingle (h : r.Keeps c) (hmode : r.isPartitioned = false) {last : Option Mark}
    (hlast : ∀ m ∈ last, m.OfKind r.kind) (now : Nat) : r.Keeps (Reader.moveSingle last now c) where
  wellFormed := h.wellFormed.moveSingle last now
  mode := (Cursor.isPartitioned_moveSingle last now c).trans h.mode
  marks u hu := by
    rw [Cursor.units_moveSingle (h.mode.trans hmode)] at hu
    exact h.ofKind_of_modify hlast hu

/-- A scan of a slot keeps the cursor. -/
lemma moveSlot (h : r.Keeps c) (hmode : r.isPartitioned = true) (i : Nat) {last : Option Mark}
    (hlast : ∀ m ∈ last, m.OfKind r.kind) (now : Nat) :
    r.Keeps (Reader.moveSlot i last now c) where
  wellFormed := h.wellFormed.moveSlot i last now
  mode := (Cursor.isPartitioned_moveSlot i last now c).trans h.mode
  marks u hu := by
    rw [Cursor.units_moveSlot (h.mode.trans hmode)] at hu
    exact h.ofKind_of_modify hlast hu

/-- Undoing moves from marks of some kind leaves a unit at a mark of the kind. -/
lemma ofKind_foldl_undo {k : MarkKind} {l : List Advance} {u : TableUnit}
    (hl : ∀ a ∈ l, a.before.OfKind k) (hu : u.progress.after.OfKind k) :
    (l.foldl (fun u a => u.undo a) u).progress.after.OfKind k := by
  induction l generalizing u with
  | nil => exact hu
  | cons a rest ih =>
    have hfirst : (u.undo a).progress.after.OfKind k := by
      simp only [TableUnit.undo, Progress.undo]
      split_ifs
      · exact hl a (by simp)
      · exact hu
      · exact hu
    exact ih (fun a' ha' => hl a' (by simp [ha'])) hfirst

/-- Undoing a batch keeps the cursor. -/
lemma undoAll (h : r.Keeps c) (hb : r.Gives b) : r.Keeps (c.undoAll b) where
  wellFormed := h.wellFormed.undoAll b
  mode := (Cursor.isPartitioned_undoAll b c).trans h.mode
  marks u hu := by
    have hreverse : ∀ a ∈ b.advances.reverse, a ∈ b.advances := fun a => List.mem_reverse.1
    rw [Cursor.undoAll, Cursor.units_foldl_undo h.wellFormed
      fun a ha => hb.single a (hreverse a ha)] at hu
    obtain ⟨v, hv, rfl⟩ := List.mem_map.1 hu
    exact ofKind_foldl_undo (fun a ha => hb.marks a (hreverse a ha)) (h.marks v hv)

/-- Adding identities keeps the cursor. -/
lemma adopt (h : r.Keeps c) {rows : List Sql.Row} (hrows : ∀ row ∈ rows, row.IsRegular) :
    r.Keeps (c.adopt r.kind rows) where
  wellFormed := h.wellFormed.adopt r.kind rows
  mode := (Cursor.isPartitioned_adopt r.kind rows c).trans h.mode
  marks u hu := by
    obtain ⟨added, hunits, hadded⟩ := Cursor.units_adopt c r.kind rows
    rw [hunits] at hu
    rcases List.mem_append.1 hu with hu | hu
    · exact h.marks u hu
    · obtain ⟨row, hmem, hrow⟩ := hadded u hu
      obtain ⟨p, hp, rfl⟩ := Option.map_eq_some_iff.1 hrow
      simp only [Partition.ofMinimum?, Option.bind_eq_bind, Option.bind_eq_some_iff] at hp
      obtain ⟨_, _, m, ⟨cell, hcell, hm⟩, hp⟩ := hp
      obtain rfl := Option.some.inj hp
      exact Mark.ofKind_of_ofCell? ((hrows row hmem).of_get? hcell) hm

end Keeps

namespace Gives

/-- A batch without moves. -/
lemma empty : r.Gives Batch.empty := ⟨by simp [Batch.empty], by simp [Batch.empty]⟩

/-- One more query does not move anything. -/
lemma asked (hb : r.Gives b) : r.Gives b.asked := ⟨hb.marks, hb.single⟩

/-- A batch with one more unit. -/
lemma add (hb : r.Gives b) (records : List Record) {advance : Option Advance} (filled : Bool)
    (hmarks : ∀ a ∈ advance, a.before.OfKind r.kind)
    (hsingle : ∀ a ∈ advance, a.unit = none → a.wasUnread = false) :
    r.Gives (b.add records advance filled) where
  marks a ha := by
    rcases List.mem_append.1 ha with ha | ha
    · exact hb.marks a ha
    · exact hmarks a (Option.mem_toList.1 ha)
  single a ha := by
    rcases List.mem_append.1 ha with ha | ha
    · exact hb.single a ha
    · exact hsingle a (Option.mem_toList.1 ha)

end Gives

/-- The mark of the last row of a scan is of the reader's kind. -/
lemma ofKind_of_scanned {answer : Except DatabaseError (List Sql.Row)} {rows : List Sql.Row}
    {last : Option Mark} (hanswer : Sql.Answerable answer)
    (h : r.scanned answer = .ok (rows, last)) : ∀ m ∈ last, m.OfKind r.kind := by
  cases answer with
  | error e => cases h
  | ok rows' =>
    unfold scanned at h
    cases hlast : rows'.getLast? with
    | none =>
      simp only [hlast, Except.ok.injEq, Prod.mk.injEq] at h
      simp [← h.2]
    | some row =>
      cases hmark : r.markOf? row with
      | none => simp [hlast, hmark] at h
      | some m =>
        simp only [hlast, hmark, Except.ok.injEq, Prod.mk.injEq] at h
        rintro m' hm'
        obtain rfl : m = m' := Option.some.inj (h.2.trans hm')
        obtain ⟨cell, hget, hcell⟩ := Option.bind_eq_some_iff.1 hmark
        have hregular := hanswer rows' rfl row (List.mem_of_getLast? hlast)
        exact Mark.ofKind_of_ofCell? (hregular.of_get? hget) hcell

end Reader

/-- An open table in use: its cursor, the programs that are under way, and the batches that reads
have given. -/
structure Usage where
  cursor : Cursor
  running : List (Activity (List Batch))
  batches : List Batch

namespace Usage

/-- What an action may be answered: it gets and changes the cursor of its table, and is answered
anything else that can be answered. -/
def Answers (r : Reader) (c : Cursor) : (q : Action) → q.Answer → Cursor → Prop
  | .exchange table change, before, c' =>
    if table = r.name then before = c ∧ c' = change c else c' = c
  | .query _, answer, c' => c' = c ∧ Sql.Answerable answer
  | .emit _, _, c' => c' = c
  | .describe _, _, c' => c' = c
  | .load _, _, c' => c' = c
  | .save _ _, _, c' => c' = c
  | .enter _, _, c' => c' = c
  | .leave _, _, c' => c' = c
  | .clock, _, c' => c' = c

/-- Surroundings that keep the cursor. -/
def setting (r : Reader) : Setting Action Action.Answer Cursor :=
  ⟨Answers r, fun c c' => r.Keeps c → r.Keeps c', fun _ => id, fun h h' => h' ∘ h⟩

/-- The batch that a read gives, whole or up to where it was cut off. -/
def given : Except Interruption Batch → Batch
  | .ok b => b
  | .error x => x.batch

variable {r : Reader} {c : Cursor}

/-- Programs that keep the cursor. -/
abbrev Ensures {α : Type} (r : Reader) (p : Activity α) (post : α → Prop) (c : Cursor) : Prop :=
  p.Ensures (setting r) r.Keeps (fun a c => r.Keeps c ∧ post a) c

/-- A program that is done keeps the cursor. -/
lemma ensures_done {α : Type} {a : α} {post : α → Prop} (hc : r.Keeps c) (h : post a) :
    Ensures r (.done a) post c := fun _ hd => ⟨hd hc, h⟩

/-- A query keeps the cursor. -/
lemma ensures_query {α : Type} {q : Sql.Query} {post : α → Prop}
    {next : Except DatabaseError (List Sql.Row) → Activity α} (hc : r.Keeps c)
    (hnext : ∀ answer c', Sql.Answerable answer → r.Keeps c' → Ensures r (next answer) post c') :
    Ensures r ((Activity.query q).bind next) post c := by
  intro c₁ hd answer c₂ ha
  obtain ⟨rfl, hanswer⟩ : c₂ = c₁ ∧ Sql.Answerable answer := ha
  exact ⟨hd hc, hnext answer c₂ hanswer (hd hc)⟩

/-- A change that keeps the cursor answers a cursor that was kept. -/
lemma ensures_exchange {α : Type} {change : Cursor → Cursor} {post : α → Prop}
    {next : Cursor → Activity α} (hc : r.Keeps c)
    (hchange : ∀ c', r.Keeps c' → r.Keeps (change c'))
    (hnext : ∀ before c', r.Keeps before → r.Keeps c' → Ensures r (next before) post c') :
    Ensures r ((Activity.exchange r.name change).bind next) post c := by
  intro c₁ hd before c₂ ha
  obtain ⟨rfl, rfl⟩ : before = c₁ ∧ c₂ = change c₁ := by simpa [setting, Answers] using ha
  exact ⟨hchange _ (hd hc), hnext _ _ (hd hc) (hchange _ (hd hc))⟩

/-- A program inside the table keeps the cursor as it does on its own. -/
lemma ensures_inside {α : Type} {p : Activity α} {post : α → Prop} (hc : r.Keeps c)
    (hp : ∀ c', r.Keeps c' → Ensures r p post c') :
    Ensures r (Activity.inside r.name p) post c := by
  intro c₁ hd _ c₂ ha
  obtain rfl : c₂ = c₁ := ha
  refine ⟨hd hc, ((hp c₂ (hd hc)).mono fun a c₃ ⟨hc₃, hpost⟩ => ?_).bind⟩
  intro c₄ hd₄ _ c₅ ha₅
  obtain rfl : c₅ = c₄ := ha₅
  exact ⟨hd₄ hc₃, ensures_done (hd₄ hc₃) hpost⟩

/-- The slots of a table are read one after the other. -/
lemma ensures_readSlots (hmode : r.isPartitioned = true) (limit now count slot : Nat) {b : Batch}
    (hb : r.Gives b) (hc : r.Keeps c) :
    Ensures r (r.readSlots limit now count slot b) (fun outcome => r.Gives (given outcome)) c := by
  induction count generalizing slot b c with
  | zero => exact ensures_done hc hb
  | succ count ih =>
    refine ensures_exchange hc (fun c' hc' => hc') fun before c₁ hbefore hc₁ => ?_
    cases hslot : before.partitions.slot? slot with
    | none => exact ih (slot + 1) hb hc₁
    | some p =>
      obtain ⟨identity, param, progress⟩ := p
      have hunit := Cursor.units_getElem?_of_isPartitioned (hbefore.mode.trans hmode) slot
      rw [hslot, Option.map_some] at hunit
      have hmark : progress.after.OfKind r.kind := hbefore.marks _ (List.mem_of_getElem? hunit)
      by_cases hdue : Idle.due progress.idle r.idlePolicy now = true
      · simp only [hdue, if_true]
        refine ensures_query hc₁ fun answer c₂ hanswer hc₂ => ?_
        cases hscanned : r.scanned answer with
        | error e => exact ensures_done hc₂ hb.asked
        | ok page =>
          obtain ⟨rows, last⟩ := page
          refine ensures_exchange hc₂
            (fun c' hc' => hc'.moveSlot hmode slot (Reader.ofKind_of_scanned hanswer hscanned) now)
            fun _ c₃ _ hc₃ => ih (slot + 1) (hb.asked.add _ _ ?_ ?_) hc₃
          · intro a ha
            obtain ⟨m, -, rfl⟩ := Option.map_eq_some_iff.1 ha
            exact hmark
          · intro a ha hnone
            obtain ⟨m, -, rfl⟩ := Option.map_eq_some_iff.1 ha
            cases hnone
      · simp only [hdue]
        exact ih (slot + 1) hb hc₁

/-- A table that is read as a whole is read. -/
lemma ensures_readSingle (hmode : r.isPartitioned = false) (limit now : Nat) (hc : r.Keeps c) :
    Ensures r (r.readSingle limit now) (fun outcome => r.Gives (given outcome)) c := by
  refine ensures_exchange hc (fun c' hc' => hc') fun before c₁ hbefore hc₁ => ?_
  cases before with
  | partitioned ps => exact ensures_done hc₁ .empty
  | single after idle =>
    have hmark : after.OfKind r.kind :=
      hbefore.marks ⟨none, none, ⟨after, false, idle⟩⟩ (by simp [Cursor.units])
    by_cases hdue : Idle.due idle r.idlePolicy now = true
    · simp only [hdue, if_true]
      refine ensures_query hc₁ fun answer c₂ hanswer hc₂ => ?_
      cases hscanned : r.scanned answer with
      | error e => exact ensures_done hc₂ Reader.Gives.empty.asked
      | ok page =>
        obtain ⟨rows, last⟩ := page
        refine ensures_exchange hc₂
          (fun c' hc' => hc'.moveSingle hmode (Reader.ofKind_of_scanned hanswer hscanned) now)
          fun _ c₃ _ hc₃ => ensures_done hc₃ (Reader.Gives.empty.asked.add _ _ ?_ ?_)
        · intro a ha
          obtain ⟨m, -, rfl⟩ := Option.map_eq_some_iff.1 ha
          exact hmark
        · intro a ha _
          obtain ⟨m, -, rfl⟩ := Option.map_eq_some_iff.1 ha
          rfl
    · simp only [hdue]
      exact ensures_done hc₁ .empty

/-- A read keeps the cursor, whatever the database answers, and gives a batch of the reader. -/
theorem ensures_read (limit now : Nat) (hc : r.Keeps c) :
    Ensures r (r.read limit now) (fun outcome => r.Gives (given outcome)) c := by
  refine ensures_inside hc fun c₁ hc₁ => ?_
  by_cases hmode : r.isPartitioned = true
  · rw [if_pos hmode]
    exact ensures_exchange hc₁ (fun c' hc' => hc') fun _ c₂ _ hc₂ =>
      ensures_readSlots hmode _ now _ 0 .empty hc₂
  · rw [if_neg hmode]
    exact ensures_readSingle (Bool.eq_false_of_not_eq_true hmode) _ now hc₁

/-- Rolling back a batch of the reader keeps the cursor. -/
lemma ensures_rollback {b : Batch} (hb : r.Gives b) (hc : r.Keeps c) :
    Ensures r (r.rollback b) (fun _ => True) c :=
  ensures_inside hc fun _ hc₁ => ensures_exchange hc₁ (fun _ hc' => hc'.undoAll hb)
    fun _ _ _ hc₂ => ensures_done hc₂ trivial

/-- Discovering identities keeps the cursor. -/
lemma ensures_discover (hc : r.Keeps c) : Ensures r r.discover (fun _ => True) c := by
  unfold Reader.discover
  cases r.selection.identity with
  | none => exact ensures_done hc trivial
  | some identity =>
    simp only
    split
    · cases r.descriptor.minimumQuery r.selection identity with
      | none => exact ensures_done hc trivial
      | some q =>
        refine ensures_query hc fun answer c₁ hanswer hc₁ => ?_
        cases answer with
        | error e => exact ensures_done hc₁ trivial
        | ok rows =>
          exact ensures_exchange hc₁ (fun _ hc' => hc'.adopt (hanswer rows rfl))
            fun _ _ _ hc₂ => ensures_done hc₂ trivial
    · exact ensures_done hc trivial

/-- What is begun on an open table, as a program that answers the batches it gives. -/
inductive Begun (r : Reader) (batches : List Batch) : Activity (List Batch) → Prop
  | read (limit now : Nat) :
      Begun r batches ((r.read limit now).bind fun outcome => .done [given outcome])
  | rollback {b : Batch} (h : b ∈ batches) : Begun r batches ((r.rollback b).bind fun _ => .done [])
  | discover : Begun r batches (r.discover.bind fun _ => .done [])

/-- A table that has just been opened. -/
def opening (c : Cursor) : Usage := ⟨c, [], []⟩

/-- One step: a program begins, acts or ends. -/
inductive Step (r : Reader) : Usage → Usage → Prop
  | begins {u : Usage} {p : Activity (List Batch)} (h : Begun r u.batches p) :
      Step r u { u with running := p :: u.running }
  | acts {u : Usage} {before after : List (Activity (List Batch))} {p p' : Activity (List Batch)}
      {c : Cursor} (h : u.running = before ++ p :: after)
      (hm : Program.Moves (Answers r) p u.cursor p' c) :
      Step r u { u with cursor := c, running := before ++ p' :: after }
  | ends {u : Usage} {before after : List (Activity (List Batch))} {found : List Batch}
      (h : u.running = before ++ .done found :: after) :
      Step r u { u with running := before ++ after, batches := u.batches ++ found }

/-- Any number of steps. -/
abbrev Run (r : Reader) : Usage → Usage → Prop := Relation.ReflTransGen (Step r)

/-- What holds of a table in use at all times. -/
structure Invariant (r : Reader) (u : Usage) : Prop where
  cursor : r.Keeps u.cursor
  running : ∀ p ∈ u.running, Ensures r p (fun found => ∀ b ∈ found, r.Gives b) u.cursor
  batches : ∀ b ∈ u.batches, r.Gives b

/-- What is begun keeps the cursor, and gives batches of the reader. -/
lemma Begun.ensures {batches : List Batch} {p : Activity (List Batch)} (h : Begun r batches p)
    (hbatches : ∀ b ∈ batches, r.Gives b) (hc : r.Keeps c) :
    Ensures r p (fun found => ∀ b ∈ found, r.Gives b) c := by
  cases h with
  | read limit now =>
    refine .bind ((ensures_read limit now hc).mono fun outcome c' ⟨hc', hgives⟩ => ?_)
    exact ensures_done hc' (by simpa using hgives)
  | rollback hb =>
    refine .bind ((ensures_rollback (hbatches _ hb) hc).mono fun _ c' ⟨hc', _⟩ => ?_)
    exact ensures_done hc' (by simp)
  | discover =>
    refine .bind ((ensures_discover hc).mono fun _ c' ⟨hc', _⟩ => ?_)
    exact ensures_done hc' (by simp)

namespace Invariant

variable {u u' : Usage}

/-- The invariant holds of a table that has just been opened. -/
lemma opening (hc : r.Keeps c) : (Usage.opening c).Invariant r :=
  ⟨hc, by simp [Usage.opening], by simp [Usage.opening]⟩

/-- A step keeps the invariant. -/
theorem step (h : u.Invariant r) (hstep : Step r u u') : u'.Invariant r := by
  cases hstep with
  | begins hbegun =>
    refine ⟨h.cursor, fun p hp => ?_, h.batches⟩
    rcases List.mem_cons.1 hp with rfl | hp
    · exact hbegun.ensures h.batches h.cursor
    · exact h.running p hp
  | acts hrunning hm =>
    obtain ⟨hc, hacted⟩ := (h.running _ (by simp [hrunning])).moves h.cursor hm
    refine ⟨hc, fun p hp => ?_, h.batches⟩
    rcases List.mem_append.1 hp with hp | hp
    · exact (h.running p (by simp [hrunning, hp])).disturbed fun _ => hc
    · rcases List.mem_cons.1 hp with rfl | hp
      · exact hacted
      · exact (h.running p (by simp [hrunning, hp])).disturbed fun _ => hc
  | @ends before after found hrunning =>
    obtain ⟨-, hgives⟩ := (h.running (.done found) (by simp [hrunning])).ended
    refine ⟨h.cursor, fun p hp => h.running p ?_, fun b hb => ?_⟩
    · rw [hrunning]
      rcases List.mem_append.1 hp with hp | hp <;> simp [hp]
    · rcases List.mem_append.1 hb with hb | hb
      · exact h.batches b hb
      · exact hgives b hb

/-- Any number of steps keep the invariant. -/
theorem run (h : u.Invariant r) (hrun : Run r u u') : u'.Invariant r := by
  induction hrun with
  | refl => exact h
  | tail _ hstep ih => exact ih.step hstep

end Invariant

/-- A program that is under way may act on its own for a while. -/
lemma run_acts (running : List (Activity (List Batch))) (batches : List Batch)
    {x y : Activity (List Batch) × Cursor}
    (hm : Program.Acts (Answers r) x y) :
    Run r ⟨x.2, x.1 :: running, batches⟩ ⟨y.2, y.1 :: running, batches⟩ := by
  induction hm with
  | refl => exact .refl
  | @tail y z _ hstep ih =>
    have hfirst : y.1 :: running = [] ++ y.1 :: running := rfl
    have hacts := Step.acts (u := ⟨y.2, y.1 :: running, batches⟩) hfirst hstep
    exact ih.tail hacts

/-- What is begun may run on its own to its end. -/
lemma run_begun {u : Usage} {p : Activity (List Batch)} {found : List Batch}
    (h : Begun r u.batches p) (hm : Program.Acts (Answers r) (p, u.cursor) (.done found, c)) :
    Run r u { u with cursor := c, batches := u.batches ++ found } := by
  have hacts := run_acts u.running u.batches hm
  have hfirst : .done found :: u.running = [] ++ .done found :: u.running := rfl
  have hends := Step.ends (r := r) (u := ⟨c, .done found :: u.running, u.batches⟩) hfirst
  exact ((Relation.ReflTransGen.single (.begins h)).trans hacts).tail hends

end Usage

end TableTail
