import Mathlib.Logic.Function.Basic
import TableTail.Delivery.Pass
import TableTail.Proofs.Process.Shares
import TableTail.Proofs.Tail.SideBySide

/-!
# What a poll touches

The tables of a pass share one registry, one sink, and a register of who is inside of which table
(`Hall`). What a table asks the database, the sink and the clock is answered from surroundings of
its own; so each table has its part of the hall (`Stall`), and acting on a table touches this part
only (`separate_of_actsOn`). A poll acts on its own table, goes inside only when it is not inside,
and comes out again (`actsOn_poll`).
-/

namespace TableTail

/-- The answers of the surroundings, which may depend on what was asked before. -/
abbrev Oracle (σ : Type) : Type := (a : Action) → σ → a.Answer × σ

/-- What the tables of a pass act on: the registry, the surroundings of each table, the deliveries
that the sink has taken, and the tables that a program is inside of. -/
structure Hall (σ : Type) where
  registry : Registry
  around : String → σ
  taken : List (String × List Record)
  entered : List String

/-- The part of a hall that belongs to one table. -/
structure Stall (σ : Type) where
  tracked : Option Tracked
  around : σ
  taken : List (List Record)
  inside : Bool

variable {σ : Type}

namespace Hall

/-- The deliveries that the sink has taken, after its verdict on one more. -/
def noted {α : Type} (verdict : Except SinkError Unit) (delivery : α) (taken : List α) : List α :=
  match verdict with
  | .ok () => taken ++ [delivery]
  | .error _ => taken

/-- A hall before anything is read or delivered. -/
def opening (reg : Registry) (around : String → σ) : Hall σ := ⟨reg, around, [], []⟩

/-- The deliveries of a table. -/
def takenOf (table : String) (taken : List (String × List Record)) : List (List Record) :=
  (taken.filter fun delivery => delivery.1 == table).map (·.2)

/-- The part of a table. -/
def stall (s : Hall σ) (table : String) : Stall σ :=
  ⟨Named.get? table s.registry.tables, s.around table, takenOf table s.taken,
    s.entered.contains table⟩

/-- A table is entered only when nobody is inside. -/
def Ready : String × Action → Hall σ → Prop
  | (_, .enter table), s => s.entered.contains table = false
  | _, _ => True

/-- What a table asks is answered by its own surroundings. -/
def answer (oracle : String → Oracle σ) :
    (q : String × Action) → Hall σ → q.2.Answer × Hall σ
  | (_, .exchange table change), s =>
    (s.registry.cursorOf table, { s with registry := s.registry.changeCursor table change })
  | (_, .enter table), s => ((), { s with entered := table :: s.entered })
  | (_, .leave table), s =>
    ((), { s with entered := s.entered.filter fun entered => entered != table })
  | (asker, .emit records), s =>
    let told := oracle asker (.emit records) (s.around asker)
    (told.1, { s with
      around := Function.update s.around asker told.2
      taken := noted told.1 (asker, records) s.taken })
  | (asker, a), s =>
    let told := oracle asker a (s.around asker)
    (told.1, { s with around := Function.update s.around asker told.2 })

end Hall

/-- The cursor of the table. -/
def Stall.cursor (l : Stall σ) : Cursor :=
  match l.tracked with
  | some t => t.cursor
  | none => default

/-- What a table asks when there are no other ones. -/
def Stall.answer (oracle : Oracle σ) : (a : Action) → Stall σ → a.Answer × Stall σ
  | .exchange _ change, l =>
    (l.cursor, { l with tracked := l.tracked.map fun t => { t with cursor := change t.cursor } })
  | .enter _, l => ((), { l with inside := true })
  | .leave _, l => ((), { l with inside := false })
  | .emit records, l =>
    let told := oracle (.emit records) l.around
    (told.1, { l with around := told.2, taken := Hall.noted told.1 records l.taken })
  | a, l =>
    let told := oracle a l.around
    (told.1, { l with around := told.2 })

/-- The stalls of a hall. -/
def Hall.sharing (oracle : String → Oracle σ) :
    Sharing String Action Action.Answer (Hall σ) (Stall σ) where
  ready := Hall.Ready
  answer := Hall.answer oracle
  share := Hall.stall
  alone table := Stall.answer (oracle table)

/-- A program that acts on one table: it changes no other cursor, goes inside this table only when
it is not inside, and comes out only when it is; whether it is inside at first and at its end. -/
def ActsOn {α : Type} (table : String) : (inside : Bool) → Activity α → (ends : Bool) → Prop
  | inside, .done _, ends => inside = ends
  | inside, .ask (.exchange other _) next, ends =>
    other = table ∧ ∀ c, ActsOn table inside (next c) ends
  | inside, .ask (.enter other) next, ends =>
    other = table ∧ inside = false ∧ ActsOn table true (next ()) ends
  | inside, .ask (.leave other) next, ends =>
    other = table ∧ inside = true ∧ ActsOn table false (next ()) ends
  | inside, .ask _ next, ends => ∀ a, ActsOn table inside (next a) ends
  | inside, .pause _ next, ends => ActsOn table inside next ends

section Separate

variable {oracle : String → Oracle σ} {s : Hall σ} {table : String}

/-- Changing a cursor touches the stall of its table only. -/
lemma separate_exchange (change : Cursor → Cursor) :
    (Hall.sharing oracle).Separate table (.exchange table change) s := by
  refine ⟨trivial, rfl, ?_, fun other hne => ?_⟩
  · simp [Hall.sharing, Hall.answer, Hall.stall, Stall.answer, Registry.changeCursor,
      Named.get?_change]
  · simp [Hall.sharing, Hall.answer, Hall.stall, Registry.changeCursor, Named.get?_change, hne]

/-- A table that is not inside goes inside. -/
lemma separate_enter (h : (s.stall table).inside = false) :
    (Hall.sharing oracle).Separate table (.enter table) s := by
  refine ⟨h, rfl, ?_, fun other hne => ?_⟩
  · simp [Hall.sharing, Hall.answer, Hall.stall, Stall.answer]
  · simp [Hall.sharing, Hall.answer, Hall.stall, hne]

/-- A table comes out again. -/
lemma separate_leave : (Hall.sharing oracle).Separate table (.leave table) s := by
  refine ⟨trivial, rfl, ?_, fun other hne => ?_⟩
  · simp [Hall.sharing, Hall.answer, Hall.stall, Stall.answer]
  · simp [Hall.sharing, Hall.answer, Hall.stall, hne]

/-- A delivery is noted with its table. -/
lemma takenOf_noted (verdict : Except SinkError Unit) (records : List Record)
    (taken : List (String × List Record)) (table : String) :
    Hall.takenOf table (Hall.noted verdict (table, records) taken) =
      Hall.noted verdict records (Hall.takenOf table taken) := by
  cases verdict with
  | ok u => simp [Hall.takenOf, Hall.noted]
  | error e => rfl

/-- Other tables have no more deliveries than before. -/
lemma takenOf_noted_of_ne {table other : String} (h : other ≠ table)
    (verdict : Except SinkError Unit) (records : List Record)
    (taken : List (String × List Record)) :
    Hall.takenOf other (Hall.noted verdict (table, records) taken) =
      Hall.takenOf other taken := by
  cases verdict with
  | ok u => simp [Hall.takenOf, Hall.noted, h.symm]
  | error e => rfl

/-- A delivery touches the deliveries and the surroundings of its table only. -/
lemma separate_emit (records : List Record) :
    (Hall.sharing oracle).Separate table (.emit records) s := by
  refine ⟨trivial, rfl, ?_, fun other hne => ?_⟩
  · simpa [Hall.sharing, Hall.answer, Hall.stall, Stall.answer] using takenOf_noted ..
  · simpa [Hall.sharing, Hall.answer, Hall.stall, hne] using takenOf_noted_of_ne hne ..

/-- A question to the surroundings touches those of its table only. -/
lemma separate_told {a : Action} (hready : Hall.Ready (table, a) s)
    (hanswer : Hall.answer oracle (table, a) s = ((oracle table a (s.around table)).1,
      { s with around := Function.update s.around table (oracle table a (s.around table)).2 }))
    (halone : Stall.answer (oracle table) a (s.stall table) =
      ((oracle table a (s.around table)).1,
        { s.stall table with around := (oracle table a (s.around table)).2 })) :
    (Hall.sharing oracle).Separate table a s := by
  refine ⟨hready, ?_, ?_, fun other hne => ?_⟩
  · exact (congrArg Prod.fst hanswer).trans (congrArg Prod.fst halone).symm
  · refine (congrArg (fun x => Hall.stall x.2 table) hanswer).trans ?_
    refine Eq.trans ?_ (congrArg Prod.snd halone).symm
    simp [Hall.stall]
  · refine (congrArg (fun x => Hall.stall x.2 other) hanswer).trans ?_
    simp [Hall.sharing, Hall.stall, hne]

/-- A program that acts on one table touches its stall only, and never waits. -/
theorem separate_of_actsOn {α : Type} {inside ends : Bool} {program : Activity α} {l : Stall σ}
    (h : ActsOn table inside program ends) (hinside : l.inside = inside) :
    program.Separate (Hall.sharing oracle) table l := by
  induction program generalizing inside l with
  | done a => trivial
  | ask a next ih =>
    cases a with
    | exchange other change =>
      obtain ⟨rfl, hnext⟩ := h
      exact ⟨fun s _ => separate_exchange change, ih _ (hnext _) hinside⟩
    | enter other =>
      obtain ⟨rfl, rfl, hnext⟩ := h
      refine ⟨fun s hs => separate_enter ?_, ih _ hnext rfl⟩
      rw [← hinside, ← hs]
      rfl
    | leave other =>
      obtain ⟨rfl, -, hnext⟩ := h
      exact ⟨fun s _ => separate_leave, ih _ hnext rfl⟩
    | emit records => exact ⟨fun s _ => separate_emit records, ih _ (h _) hinside⟩
    | describe other => exact ⟨fun s _ => separate_told trivial rfl rfl, ih _ (h _) hinside⟩
    | query q => exact ⟨fun s _ => separate_told trivial rfl rfl, ih _ (h _) hinside⟩
    | load location => exact ⟨fun s _ => separate_told trivial rfl rfl, ih _ (h _) hinside⟩
    | save location contents =>
      exact ⟨fun s _ => separate_told trivial rfl rfl, ih _ (h _) hinside⟩
    | clock => exact ⟨fun s _ => separate_told trivial rfl rfl, ih _ (h _) hinside⟩
  | pause ms next ih => exact ih h hinside

end Separate

section ActsOn

variable {α β ε : Type} {r : Reader} {table : String} {inside ends : Bool}

/-- Two programs in a row act on what each of them acts on. -/
lemma ActsOn.bind {between : Bool} {p : Activity α} {f : α → Activity β}
    (hp : ActsOn table inside p between) (hf : ∀ a, ActsOn table between (f a) ends) :
    ActsOn table inside (p.bind f) ends := by
  induction p generalizing inside with
  | done a =>
    obtain rfl : inside = between := hp
    exact hf a
  | ask a next ih =>
    cases a with
    | exchange other change => exact ⟨hp.1, fun c => ih c (hp.2 c)⟩
    | enter other => exact ⟨hp.1, hp.2.1, ih () hp.2.2⟩
    | leave other => exact ⟨hp.1, hp.2.1, ih () hp.2.2⟩
    | _ => exact fun a => ih a (hp a)
  | pause ms next ih => exact ih hp

/-- A program that acts inside a table, from outside. -/
lemma ActsOn.goesInside {p : Activity α} (h : ActsOn table true p true) :
    ActsOn table false (Activity.inside table p) false :=
  ⟨rfl, rfl, h.bind fun _ => ⟨rfl, rfl, rfl⟩⟩

/-- What a call does inside its table acts on this table. -/
lemma actsOn_of_asks {call : Call} {p : Activity α} (h : p.Asks (Calls.ActsInside r call)) :
    ActsOn r.name inside p inside := by
  induction p with
  | done a => rfl
  | ask a next ih =>
    obtain ⟨hask, hnext⟩ := h
    cases a with
    | query q => exact fun answer => ih answer (hnext answer)
    | exchange table change => exact ⟨hask.1, fun c => ih c (hnext c)⟩
    | _ => exact hask.elim
  | pause ms next ih => exact ih h

/-- Retrying acts on what an attempt acts on. -/
lemma ActsOn.retry {attempt : Activity (Except ε α)} (h : ActsOn table inside attempt inside)
    (longest retries delay : Nat) :
    ActsOn table inside (Program.retry attempt longest retries delay) inside := by
  induction retries generalizing delay with
  | zero => exact h
  | succ retries ih =>
    refine h.bind fun outcome => ?_
    cases outcome with
    | ok a => rfl
    | error e => exact ih _

/-- Delivering a batch acts on the table, which is entered for a rollback only. -/
lemma actsOn_deliver (r : Reader) (retries : Nat) (b : Batch) :
    ActsOn r.name false (r.deliver retries b) false := by
  unfold Reader.deliver
  split
  · rfl
  · have hemit : ActsOn r.name false (Activity.emit b.records) false := fun _ => rfl
    refine (hemit.retry _ _ _).bind fun verdict => ?_
    cases verdict with
    | ok u => rfl
    | error e =>
      obtain ⟨undone, hrollback, hundone⟩ := Calls.exists_rollback r b
      have hacts := (actsOn_of_asks hundone).goesInside
      rw [← hrollback] at hacts
      exact hacts.bind fun _ => rfl

/-- A poll acts on its table, from outside, and leaves nobody inside. -/
theorem actsOn_poll (r : Reader) (p : PollerSettings) :
    ActsOn r.name false (r.poll p) false := by
  intro now
  have hread : ActsOn r.name false (r.read p.batchSize now) false := by
    obtain ⟨reading, hread, hreading⟩ := Calls.exists_read r p.batchSize now
    rw [hread]
    exact (actsOn_of_asks hreading).goesInside
  refine hread.bind fun outcome => ?_
  cases outcome with
  | ok b =>
    refine (actsOn_deliver r p.deliveryRetries b).bind fun delivered => ?_
    cases delivered with
    | ok records => rfl
    | error fault => rfl
  | error interruption =>
    refine (actsOn_deliver r p.deliveryRetries interruption.batch).bind fun delivered => ?_
    cases delivered with
    | ok records => rfl
    | error fault => rfl

end ActsOn

end TableTail
