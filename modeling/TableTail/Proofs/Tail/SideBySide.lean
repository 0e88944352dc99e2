import TableTail.Proofs.Checkpoint.Restart
import TableTail.Proofs.Tail.Updates

/-!
# Calls side by side

Any number of reads, rollbacks, discoveries and checkpoints of one open table run side by side
(`Calls`). A step is one action of one call: a query, which may be answered anything, a change of
the cursor, or entering the table and leaving it; a call enters only while no other one is inside
(`Calls.Step`). Runs are all ways in which the calls' actions may follow each other.

Each change of the cursor is a complete update (`Calls.step_cursor`). So at all times the index is
right, slots stay with their identities (`Calls.slots_kept`), and a checkpoint is that of a cursor
between two updates (`Calls.checkpoint_kept`).
-/

namespace TableTail

/-- A call of an open table. -/
inductive Call
  | read (limit now : Nat)
  | rollback (b : Batch)
  | discover
  | checkpoint

/-- Whether a call goes inside the table, where only one may be. -/
def Call.goesInside : Call → Bool
  | read _ _ => true
  | rollback _ => true
  | discover => false
  | checkpoint => false

/-- The updates that a call may make: a read what it has scanned, a rollback that of its batch, and
a discovery what it has found. -/
def Call.Makes : Call → Update → Prop
  | read _ now, .scannedWhole _ now' => now' = now
  | read _ now, .scanned _ _ now' => now' = now
  | rollback b, .undone b' => b' = b
  | discover, .discovered _ _ => True
  | _, _ => False

/-- What a call returns. -/
inductive Reply
  | read (outcome : Except Interruption Batch)
  | undone
  | found (outcome : Except Failure Nat)
  | kept (checkpoint : Checkpoint)

/-- The program of a call. -/
def Reader.call (r : Reader) : Call → Activity Reply
  | .read limit now => (r.read limit now).bind fun outcome => .done (.read outcome)
  | .rollback b => (r.rollback b).bind fun _ => .done .undone
  | .discover => r.discover.bind fun outcome => .done (.found outcome)
  | .checkpoint => (Activity.look r.name).bind fun c => .done (.kept c.checkpoint)

/-- A query, and what it was answered. -/
abbrev Asked : Type := Sql.Query × Except DatabaseError (List Sql.Row)

/-- A call that is under way: what is left of its program, and what it has asked. -/
structure Underway where
  call : Call
  left : Activity Reply
  asked : List Asked

/-- What happens to a table: the call with a number goes inside, looks at the cursor or changes it,
or comes out again. -/
inductive CallEvent
  | entered (i : Nat)
  | turned (i : Nat) (call : Call)
  | left (i : Nat)

/-- Calls of one table, of which one may be inside, and what has happened so far. -/
structure Calls where
  cursor : Cursor
  inside : Option Nat
  calls : List Underway
  log : List CallEvent

/-- What a checkpoint says of a cursor: its marks, and which of them name a row that is still to be
read. -/
def Checkpoint.Shows : Checkpoint → Cursor → Prop
  | .single after, .single after' _ => after = after'
  | .partitioned positions unread, .partitioned ps => ∀ identity,
      Named.get? identity positions = (ps.get? identity).map (·.progress.after) ∧
      (identity ∈ unread ↔ ∃ p, ps.get? identity = some p ∧ p.progress.unread = true)
  | _, _ => False

/-- The checkpoint of a cursor shows that cursor. -/
lemma Cursor.WellFormed.checkpoint_shows {c : Cursor} (h : c.WellFormed) :
    c.checkpoint.Shows c := by
  cases c with
  | single after idle => rfl
  | partitioned ps => exact fun _ => ⟨h.get?_positions, h.mem_unread⟩

namespace Calls

variable {r : Reader} {s s' : Calls}

/-- Calls that have not begun. -/
def opening (r : Reader) (c : Cursor) (calls : List Call) : Calls :=
  ⟨c, none, calls.map fun call => ⟨call, r.call call, []⟩, []⟩

/-- One action of one call. -/
inductive Step (r : Reader) : Calls → Calls → Prop
  | query {s : Calls} {i : Nat} {u : Underway} {q : Sql.Query}
      {next : Except DatabaseError (List Sql.Row) → Activity Reply} (hcall : s.calls[i]? = some u)
      (hleft : u.left = .ask (.query q) next) (answer : Except DatabaseError (List Sql.Row)) :
      Step r s { s with
        calls := s.calls.set i ⟨u.call, next answer, u.asked ++ [(q, answer)]⟩ }
  | exchange {s : Calls} {i : Nat} {u : Underway} {change : Cursor → Cursor}
      {next : Cursor → Activity Reply} (hcall : s.calls[i]? = some u)
      (hleft : u.left = .ask (.exchange r.name change) next) :
      Step r s { s with
        cursor := change s.cursor
        calls := s.calls.set i ⟨u.call, next s.cursor, u.asked⟩
        log := s.log ++ [.turned i u.call] }
  | enter {s : Calls} {i : Nat} {u : Underway} {next : Unit → Activity Reply}
      (hcall : s.calls[i]? = some u) (hleft : u.left = .ask (.enter r.name) next)
      (hfree : s.inside = none) :
      Step r s { s with
        inside := some i
        calls := s.calls.set i ⟨u.call, next (), u.asked⟩
        log := s.log ++ [.entered i] }
  | leave {s : Calls} {i : Nat} {u : Underway} {next : Unit → Activity Reply}
      (hcall : s.calls[i]? = some u) (hleft : u.left = .ask (.leave r.name) next) :
      Step r s { s with
        inside := none
        calls := s.calls.set i ⟨u.call, next (), u.asked⟩
        log := s.log ++ [.left i] }

/-- Any number of actions. -/
abbrev Run (r : Reader) : Calls → Calls → Prop := Relation.ReflTransGen (Step r)

/-- The actions of a call: it changes the cursor by its updates. -/
def Acts (r : Reader) (call : Call) : Action → Prop
  | .query _ => True
  | .exchange table change =>
    table = r.name ∧ (change = id ∨ ∃ update, call.Makes update ∧ change = update.apply)
  | .enter table => table = r.name
  | .leave table => table = r.name
  | _ => False

/-- The actions of a call that is inside. -/
def ActsInside (r : Reader) (call : Call) : Action → Prop
  | .query _ => True
  | .exchange table change =>
    table = r.name ∧ (change = id ∨ ∃ update, call.Makes update ∧ change = update.apply)
  | _ => False

/-- What a call does inside is one of its actions. -/
lemma ActsInside.acts {call : Call} (a : Action) (h : ActsInside r call a) : Acts r call a := by
  cases a with
  | query q => trivial
  | exchange table change => exact h
  | _ => exact h.elim

/-- Slots are read by actions of a read. -/
lemma asks_readSlots (r : Reader) (limit max now count slot : Nat) (b : Batch) :
    (r.readSlots limit now count slot b).Asks (ActsInside r (.read max now)) := by
  induction count generalizing slot b with
  | zero => trivial
  | succ count ih =>
    refine Program.Asks.bind ⟨⟨rfl, .inl rfl⟩, fun _ => trivial⟩ fun c => ?_
    split
    · exact ih _ _
    · split
      · refine Program.Asks.bind ⟨trivial, fun _ => trivial⟩ fun answer => ?_
        split
        · trivial
        · next rows last _ =>
          exact Program.Asks.bind
            ⟨⟨rfl, .inr ⟨.scanned slot last now, rfl, rfl⟩⟩, fun _ => trivial⟩ fun _ => ih _ _
      · exact ih _ _

/-- A single mark is read by actions of a read. -/
lemma asks_readSingle (r : Reader) (limit max now : Nat) :
    (r.readSingle limit now).Asks (ActsInside r (.read max now)) := by
  refine Program.Asks.bind ⟨⟨rfl, .inl rfl⟩, fun _ => trivial⟩ fun c => ?_
  split
  · trivial
  · split
    · refine Program.Asks.bind ⟨trivial, fun _ => trivial⟩ fun answer => ?_
      split
      · trivial
      · next rows last _ =>
        exact Program.Asks.bind
          ⟨⟨rfl, .inr ⟨.scannedWhole last now, rfl, rfl⟩⟩, fun _ => trivial⟩ fun _ => trivial
    · trivial

/-- A read goes inside and acts there. -/
lemma exists_read (r : Reader) (limit now : Nat) :
    ∃ p, r.read limit now = Activity.inside r.name p ∧ p.Asks (ActsInside r (.read limit now)) := by
  refine ⟨_, rfl, ?_⟩
  split
  · exact Program.Asks.bind ⟨⟨rfl, .inl rfl⟩, fun _ => trivial⟩ fun c => asks_readSlots ..
  · exact asks_readSingle ..

/-- A rollback goes inside and acts there. -/
lemma exists_rollback (r : Reader) (b : Batch) :
    ∃ p, r.rollback b = Activity.inside r.name p ∧ p.Asks (ActsInside r (.rollback b)) :=
  ⟨_, rfl, ⟨rfl, .inr ⟨.undone b, rfl, rfl⟩⟩, fun _ => trivial⟩

/-- A program inside a table acts as it does on its own. -/
lemma asks_inside {α : Type} {call : Call} {p : Activity α} (h : p.Asks (ActsInside r call)) :
    (Activity.inside r.name p).Asks (Acts r call) :=
  ⟨rfl, fun _ => (h.mono ActsInside.acts).bind fun _ => ⟨rfl, fun _ => trivial⟩⟩

/-- All calls act in this way. -/
theorem asks_call (r : Reader) (call : Call) : (r.call call).Asks (Acts r call) := by
  cases call with
  | read limit now =>
    obtain ⟨p, hread, hp⟩ := exists_read r limit now
    rw [Reader.call, hread]
    exact (asks_inside hp).bind fun _ => trivial
  | rollback b =>
    obtain ⟨p, hrollback, hp⟩ := exists_rollback r b
    rw [Reader.call, hrollback]
    exact (asks_inside hp).bind fun _ => trivial
  | discover =>
    refine Program.Asks.bind ?_ fun _ => trivial
    unfold Reader.discover
    split
    · trivial
    · split
      · split
        · trivial
        · refine Program.Asks.bind ⟨trivial, fun _ => trivial⟩ fun answer => ?_
          split
          · trivial
          · next rows =>
            exact ⟨⟨rfl, .inr ⟨.discovered r.kind rows, trivial, rfl⟩⟩, fun _ => trivial⟩
      · trivial
  | checkpoint => exact ⟨⟨rfl, .inl rfl⟩, fun _ => trivial⟩

/-- What holds of calls at all times: what is left of them changes the cursor by complete updates,
and the index is right. -/
structure Sound (r : Reader) (s : Calls) : Prop where
  asks : ∀ u ∈ s.calls, u.left.Asks (Acts r u.call)
  wellFormed : s.cursor.WellFormed

/-- Calls that have not begun are sound. -/
lemma sound_opening {c : Cursor} (h : c.WellFormed) (calls : List Call) :
    (opening r c calls).Sound r := by
  refine ⟨fun u hu => ?_, h⟩
  obtain ⟨call, -, rfl⟩ := List.mem_map.1 hu
  exact asks_call r call

/-- A call that acts leaves the others as they are. -/
lemma forall_mem_set {P : Underway → Prop} {calls : List Underway} (h : ∀ u ∈ calls, P u) {i : Nat}
    {u : Underway} (hu : P u) : ∀ v ∈ calls.set i u, P v := by
  intro v hv
  rcases List.mem_or_eq_of_mem_set hv with hold | rfl
  · exact h v hold
  · exact hu

/-- A step changes the cursor by a complete update of one of the calls, or leaves it as it is. -/
theorem step_cursor (h : s.Sound r) (hstep : Step r s s') :
    s'.Sound r ∧ (s'.cursor = s.cursor ∨
      ∃ u ∈ s.calls, ∃ update, u.call.Makes update ∧ s'.cursor = update.apply s.cursor) := by
  cases hstep with
  | query hcall hleft answer =>
    have hasks := h.asks _ (List.mem_of_getElem? hcall)
    rw [hleft] at hasks
    exact ⟨⟨forall_mem_set h.asks (hasks.2 answer), h.wellFormed⟩, .inl rfl⟩
  | @exchange i u change next hcall hleft =>
    have hasks := h.asks _ (List.mem_of_getElem? hcall)
    rw [hleft] at hasks
    obtain ⟨⟨-, hchange⟩, hnext⟩ := hasks
    have hcalls := forall_mem_set (i := i) (u := ⟨u.call, next s.cursor, u.asked⟩) h.asks
      (hnext s.cursor)
    rcases hchange with rfl | ⟨update, hmakes, rfl⟩
    · exact ⟨⟨hcalls, h.wellFormed⟩, .inl rfl⟩
    · exact ⟨⟨hcalls, update.wellFormed h.wellFormed⟩,
        .inr ⟨u, List.mem_of_getElem? hcall, update, hmakes, rfl⟩⟩
  | enter hcall hleft hfree =>
    have hasks := h.asks _ (List.mem_of_getElem? hcall)
    rw [hleft] at hasks
    exact ⟨⟨forall_mem_set h.asks (hasks.2 ()), h.wellFormed⟩, .inl rfl⟩
  | leave hcall hleft =>
    have hasks := h.asks _ (List.mem_of_getElem? hcall)
    rw [hleft] at hasks
    exact ⟨⟨forall_mem_set h.asks (hasks.2 ()), h.wellFormed⟩, .inl rfl⟩

/-- Calls stay sound, and slots stay with their identities. -/
lemma run_sound (h : s.Sound r) (hrun : Run r s s') :
    s'.Sound r ∧ s.cursor.partitions.places <+: s'.cursor.partitions.places := by
  induction hrun with
  | refl => exact ⟨h, List.prefix_refl _⟩
  | tail _ hstep ih =>
    obtain ⟨hsound, hprefix⟩ := ih
    obtain ⟨hsound', hcursor⟩ := step_cursor hsound hstep
    refine ⟨hsound', hprefix.trans ?_⟩
    rcases hcursor with hsame | ⟨-, -, update, -, hupdate⟩
    · rw [hsame]
    · rw [hupdate]
      exact update.prefix_places _

/-- The slot of an identity stays its slot, and the index leads to it. -/
theorem slots_kept (h : s.Sound r) (hrun : Run r s s') {i : Nat} {p : Partition}
    (hp : s.cursor.partitions.slot? i = some p) :
    (∃ p', s'.cursor.partitions.slot? i = some p' ∧ p'.identity = p.identity ∧
      p'.param = p.param) ∧
      Named.get? p.identity s'.cursor.partitions.index = some i := by
  obtain ⟨hsound, added, hplaces⟩ := run_sound h hrun
  have hplace : s'.cursor.partitions.places[i]? = some (p.identity, p.param) := by
    have hold : s.cursor.partitions.places[i]? = some (p.identity, p.param) := by
      rw [Partitions.places, List.getElem?_map, show s.cursor.partitions.slots[i]? = some p from hp]
      rfl
    obtain ⟨hi, -⟩ := List.getElem?_eq_some_iff.1 hold
    rw [← hplaces, List.getElem?_append_left hi, hold]
  rw [Partitions.places, List.getElem?_map, Option.map_eq_some_iff] at hplace
  obtain ⟨p', hp', hsame⟩ := hplace
  obtain ⟨hidentity, hparam⟩ := Prod.mk.inj hsame
  refine ⟨⟨p', hp', hidentity, hparam⟩, ?_⟩
  have hwell := hsound.wellFormed
  cases hcursor : s'.cursor with
  | single after idle =>
    rw [hcursor] at hp'
    cases hp'
  | partitioned ps =>
    rw [hcursor] at hwell hp'
    refine (Partitions.WellFormed.indexed hwell p.identity i).2 ?_
    rw [show ps.slots[i]? = some p' from hp', Option.map_some, hidentity]

/-- A step leaves all calls what they are. -/
lemma map_call_step (hstep : Step r s s') : s'.calls.map (·.call) = s.calls.map (·.call) := by
  have hset : ∀ {i u v}, s.calls[i]? = some u → v.call = u.call →
      (s.calls.set i v).map (·.call) = s.calls.map (·.call) := by
    intro i u v hcall hv
    refine List.ext_getElem? fun j => ?_
    rw [List.getElem?_map, List.getElem?_map]
    by_cases hij : i = j
    · rw [← hij, List.getElem?_set_self', hcall]
      exact congrArg some hv
    · rw [List.getElem?_set_ne hij]
  cases hstep with
  | query hcall hleft answer => exact hset hcall rfl
  | exchange hcall hleft => exact hset hcall rfl
  | enter hcall hleft hfree => exact hset hcall rfl
  | leave hcall hleft => exact hset hcall rfl

/-- Calls are what they are. -/
lemma map_call_run (hrun : Run r s s') : s'.calls.map (·.call) = s.calls.map (·.call) := by
  induction hrun with
  | refl => rfl
  | tail _ hstep ih => exact (map_call_step hstep).trans ih

/-- A checkpoint is that of the cursor at some time of the run. -/
theorem checkpoint_kept {s₀ : Calls} (hopening : ∀ u ∈ s₀.calls, u.left = r.call u.call)
    (hrun : Run r s₀ s) {u : Underway} (hu : u ∈ s.calls) (hcall : u.call = .checkpoint) :
    u.left = r.call .checkpoint ∨
      ∃ s₁, Run r s₀ s₁ ∧ Run r s₁ s ∧ u.left = .done (.kept s₁.cursor.checkpoint) := by
  induction hrun generalizing u with
  | refl => exact .inl (hcall ▸ hopening u hu)
  | @tail s s' hrun hstep ih =>
    have hold : ∀ {v}, v ∈ s.calls → v.call = .checkpoint → v.left = r.call .checkpoint ∨
        ∃ s₁, Run r s₀ s₁ ∧ Run r s₁ s' ∧ v.left = .done (.kept s₁.cursor.checkpoint) := by
      intro v hv hcall
      obtain hleft | ⟨s₁, hbefore, hafter, hleft⟩ := ih hv hcall
      · exact .inl hleft
      · exact .inr ⟨s₁, hbefore, hafter.tail hstep, hleft⟩
    have hacts : ∀ {v : Underway} {q next}, v ∈ s.calls → v.call = .checkpoint →
        v.left = .ask q next → Program.ask q next = r.call .checkpoint := by
      intro v q next hv hcall hleft
      obtain h | ⟨_, _, _, h⟩ := ih hv hcall
      · exact hleft.symm.trans h
      · cases hleft.symm.trans h
    -- A checkpoint that acts has not looked yet, so it looks now.
    cases hstep with
    | query hact hleft answer =>
      rcases List.mem_or_eq_of_mem_set hu with hmem | rfl
      · exact hold hmem hcall
      · cases hacts (List.mem_of_getElem? hact) hcall hleft
    | exchange hact hleft =>
      rcases List.mem_or_eq_of_mem_set hu with hmem | rfl
      · exact hold hmem hcall
      · cases hacts (List.mem_of_getElem? hact) hcall hleft
        exact .inr ⟨s, hrun, .single (.exchange hact hleft), rfl⟩
    | enter hact hleft hfree =>
      rcases List.mem_or_eq_of_mem_set hu with hmem | rfl
      · exact hold hmem hcall
      · cases hacts (List.mem_of_getElem? hact) hcall hleft
    | leave hact hleft =>
      rcases List.mem_or_eq_of_mem_set hu with hmem | rfl
      · exact hold hmem hcall
      · cases hacts (List.mem_of_getElem? hact) hcall hleft

end Calls

end TableTail
