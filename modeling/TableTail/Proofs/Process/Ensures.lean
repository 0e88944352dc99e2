import Mathlib.Data.Set.Basic
import Mathlib.Logic.Relation
import TableTail.Process.Retry

/-!
# What programs ensure

A program runs in surroundings that answer its questions and that may change on their own between
its actions, because other programs run beside it. `Program.Ensures` says that whatever is answered
and whatever changes, an invariant holds after every action and a condition holds at the end. It is
proved by going along the program (`Ensures.bind`), it survives what the surroundings do
(`Ensures.disturbed`), and it survives each action of the program (`Ensures.moves`); so it is all
that has to be known about a program that is interleaved with others.
-/

namespace TableTail

/-- The surroundings of a program: what each question may be answered and what state this leaves,
and how the state may change between two actions. -/
structure Setting (Question : Type) (Answer : Question → Type) (σ : Type) where
  answers : σ → (q : Question) → Answer q → σ → Prop
  disturbs : σ → σ → Prop
  refl : ∀ s, disturbs s s
  trans : ∀ {s s' s''}, disturbs s s' → disturbs s' s'' → disturbs s s''

namespace Program

variable {Question : Type} {Answer : Question → Type} {α β ε σ : Type}

/-- A value that a program may end with, whatever its questions are answered. -/
def Returns : Program Question Answer α → α → Prop
  | done a, v => a = v
  | ask _ next, v => ∃ a, (next a).Returns v
  | pause _ next, v => next.Returns v

/-- One action of a program, or one pause. -/
inductive Moves (answers : σ → (q : Question) → Answer q → σ → Prop) :
    Program Question Answer α → σ → Program Question Answer α → σ → Prop
  | ask {q : Question} {next : Answer q → Program Question Answer α} {a : Answer q} {s s' : σ}
      (h : answers s q a s') : Moves answers (.ask q next) s (next a) s'
  | pause {ms : Nat} {next : Program Question Answer α} {s : σ} :
      Moves answers (.pause ms next) s next s

/-- Any number of actions and pauses of a program in a row. -/
abbrev Acts (answers : σ → (q : Question) → Answer q → σ → Prop) :
    Program Question Answer α × σ → Program Question Answer α × σ → Prop :=
  Relation.ReflTransGen fun x y => Moves answers x.1 x.2 y.1 y.2

/-- All questions of a program are of an allowed kind. -/
def Asks (allowed : Question → Prop) : Program Question Answer α → Prop
  | done _ => True
  | ask q next => allowed q ∧ ∀ a, (next a).Asks allowed
  | pause _ next => next.Asks allowed

/-- A program keeps an invariant with each of its actions and ends in a state that meets a
condition. -/
def Ensures (w : Setting Question Answer σ) (inv : σ → Prop) :
    Program Question Answer α → (α → σ → Prop) → σ → Prop
  | done a, post, s => ∀ s', w.disturbs s s' → post a s'
  | ask q next, post, s => ∀ s', w.disturbs s s' → ∀ a s'', w.answers s' q a s'' →
      inv s'' ∧ (next a).Ensures w inv post s''
  | pause _ next, post, s => next.Ensures w inv post s

/-- What a program ends with when it is run is one of its values. -/
theorem returns_run (answer : (q : Question) → σ → Answer q × σ) (wait : Nat → σ → σ)
    (p : Program Question Answer α) (s : σ) : p.Returns (p.run answer wait s).1 := by
  induction p generalizing s with
  | done a => rfl
  | ask q next ih => exact ⟨_, ih _ _⟩
  | pause ms next ih => exact ih _

/-- The values of two programs in a row are those of the second one, for a value of the first. -/
theorem returns_bind {p : Program Question Answer α} {f : α → Program Question Answer β} {v : β} :
    (p.bind f).Returns v ↔ ∃ a, p.Returns a ∧ (f a).Returns v := by
  induction p with
  | done a => simp [Returns]
  | ask q next ih =>
    simp only [ask_bind, Returns, ih]
    exact ⟨fun ⟨x, a, h⟩ => ⟨a, ⟨x, h.1⟩, h.2⟩, fun ⟨a, ⟨x, h₁⟩, h₂⟩ => ⟨x, a, h₁, h₂⟩⟩
  | pause ms next ih => simpa [Returns] using ih

section Ensures

variable {w : Setting Question Answer σ} {inv : σ → Prop} {s s' : σ}
  {p p' : Program Question Answer α} {post post' : α → σ → Prop}

namespace Ensures

/-- What a program ensures it also ensures after the surroundings have changed. -/
theorem disturbed (h : p.Ensures w inv post s) (hs : w.disturbs s s') :
    p.Ensures w inv post s' := by
  induction p generalizing s s' with
  | done a => exact fun s'' hs' => h s'' (w.trans hs hs')
  | ask q next ih => exact fun s'' hs' => h s'' (w.trans hs hs')
  | pause ms next ih => exact ih h hs

/-- A program ensures everything that follows from what it ensures. -/
theorem mono (h : p.Ensures w inv post s) (hpost : ∀ a s, post a s → post' a s) :
    p.Ensures w inv post' s := by
  induction p generalizing s with
  | done a => exact fun s' hs => hpost a s' (h s' hs)
  | ask q next ih =>
    intro s' hs a s'' ha
    obtain ⟨hinv, hnext⟩ := h s' hs a s'' ha
    exact ⟨hinv, ih a hnext⟩
  | pause ms next ih => exact ih h

/-- Two programs in a row: the first one ensures what the second one needs. -/
theorem bind {f : α → Program Question Answer β} {post : β → σ → Prop}
    (h : p.Ensures w inv (fun a s => (f a).Ensures w inv post s) s) :
    (p.bind f).Ensures w inv post s := by
  induction p generalizing s with
  | done a => exact h s (w.refl s)
  | ask q next ih =>
    intro s' hs a s'' ha
    obtain ⟨hinv, hnext⟩ := h s' hs a s'' ha
    exact ⟨hinv, ih a hnext⟩
  | pause ms next ih => exact ih h

/-- A program that is done ensures what its state meets, however the state changes. -/
theorem done {a : α} (h : ∀ s', w.disturbs s s' → post a s') :
    (Program.done a : Program Question Answer α).Ensures w inv post s := h

/-- After one of its actions a program still ensures the same, and the invariant holds. -/
theorem moves (h : p.Ensures w inv post s) (hinv : inv s) (hm : Moves w.answers p s p' s') :
    inv s' ∧ p'.Ensures w inv post s' := by
  cases hm with
  | ask ha => exact h s (w.refl s) _ _ ha
  | pause => exact ⟨hinv, h⟩

/-- The same after any number of its actions. -/
theorem acts (h : p.Ensures w inv post s) (hinv : inv s) (ha : Acts w.answers (p, s) (p', s')) :
    inv s' ∧ p'.Ensures w inv post s' := by
  generalize hx : (p, s) = x at ha
  generalize hy : (p', s') = y at ha
  induction ha generalizing p' s' with
  | refl =>
    cases hx
    cases hy
    exact ⟨hinv, h⟩
  | tail _ hm ih =>
    cases hx
    cases hy
    obtain ⟨hinv', h'⟩ := ih rfl
    exact h'.moves hinv' hm

/-- A program that has ended has met its condition. -/
theorem ended {a : α} (h : (Program.done a : Program Question Answer α).Ensures w inv post s) :
    post a s := h s (w.refl s)

/-- A program that is carried out by some way of answering meets its condition at the end. -/
theorem run {answer : (q : Question) → σ → Answer q × σ} {wait : Nat → σ → σ}
    (h : p.Ensures w inv post s)
    (hanswer : ∀ q s, w.answers s q (answer q s).1 (answer q s).2)
    (hwait : ∀ ms s, w.disturbs s (wait ms s)) :
    post (p.run answer wait s).1 (p.run answer wait s).2 := by
  induction p generalizing s with
  | done a => exact h.ended
  | ask q next ih => exact ih _ (h s (w.refl s) _ _ (hanswer q s)).2
  | pause ms next ih => exact ih (h.disturbed (hwait ms s))

/-- Retrying ensures what an attempt ensures, if an attempt that fails leaves what the next one
needs. -/
theorem retry {attempt : Program Question Answer (Except ε α)} {ready : σ → Prop}
    {post : Except ε α → σ → Prop} {longest : Nat}
    (hattempt : ∀ s, ready s → attempt.Ensures w inv
      (fun outcome s => (∀ e, outcome = .error e → ready s) ∧ post outcome s) s)
    (hstable : ∀ outcome s s', post outcome s → w.disturbs s s' → post outcome s')
    (retries delay : Nat) (hs : ready s) :
    (Program.retry attempt longest retries delay).Ensures w inv post s := by
  induction retries generalizing delay s with
  | zero => exact (hattempt s hs).mono fun outcome s h => h.2
  | succ retries ih =>
    refine ((hattempt s hs).mono fun outcome s h => ?_).bind
    cases outcome with
    | ok a => exact done fun s' hs => hstable _ _ _ h.2 hs
    | error e => exact ih _ (h.1 e rfl)

end Ensures

end Ensures

/-- Two programs in a row ask what each of them asks. -/
theorem Asks.bind {allowed : Question → Prop} {p : Program Question Answer α}
    {f : α → Program Question Answer β} (hp : p.Asks allowed) (hf : ∀ a, (f a).Asks allowed) :
    (p.bind f).Asks allowed := by
  induction p with
  | done a => exact hf a
  | ask q next ih => exact ⟨hp.1, fun a => ih a (hp.2 a)⟩
  | pause ms next ih => exact ih hp

/-- A program asks what it asks, and more may be allowed. -/
theorem Asks.mono {allowed allowed' : Question → Prop} {p : Program Question Answer α}
    (h : p.Asks allowed) (hallowed : ∀ q, allowed q → allowed' q) : p.Asks allowed' := by
  induction p with
  | done a => trivial
  | ask q next ih => exact ⟨hallowed q h.1, fun a => ih a (h.2 a)⟩
  | pause ms next ih => exact ih h

/-- An action of a program is one of those that it asks for, and what is left asks no others. -/
theorem Asks.moves {answers : σ → (q : Question) → Answer q → σ → Prop}
    {allowed : Question → Prop} {p p' : Program Question Answer α} {s s' : σ} (h : p.Asks allowed)
    (hm : Moves answers p s p' s') :
    p'.Asks allowed ∧ (s' = s ∨ ∃ q a, allowed q ∧ answers s q a s') := by
  cases hm with
  | ask ha => exact ⟨h.2 _, .inr ⟨_, _, h.1, ha⟩⟩
  | pause => exact ⟨h, .inl rfl⟩

/-- A program after a number of its actions, answered in some way. -/
def after (answer : (q : Question) → σ → Answer q × σ) :
    Nat → Program Question Answer α → σ → Program Question Answer α × σ
  | 0, p, s => (p, s)
  | _ + 1, done a, s => (done a, s)
  | n + 1, ask q next, s => after answer n (next (answer q s).1) (answer q s).2
  | n + 1, pause _ next, s => after answer n next s

/-- A program gets by its own actions to where it is after a number of them. -/
theorem acts_after {answers : σ → (q : Question) → Answer q → σ → Prop}
    {answer : (q : Question) → σ → Answer q × σ}
    (hanswer : ∀ q s, answers s q (answer q s).1 (answer q s).2) (n : Nat)
    (p : Program Question Answer α) (s : σ) :
    Acts answers (p, s) (after answer n p s) := by
  induction n generalizing p s with
  | zero => cases p <;> exact .refl
  | succ n ih =>
    cases p with
    | done a => exact .refl
    | ask q next => exact .head (.ask (hanswer q s)) (ih _ _)
    | pause ms next => exact .head .pause (ih _ _)

/-- A program gets by its own actions to its end. -/
theorem acts_run {answers : σ → (q : Question) → Answer q → σ → Prop}
    {answer : (q : Question) → σ → Answer q × σ}
    (hanswer : ∀ q s, answers s q (answer q s).1 (answer q s).2)
    (p : Program Question Answer α) (s : σ) :
    Acts answers (p, s)
      (done (p.run answer (fun _ s => s) s).1, (p.run answer (fun _ s => s) s).2) := by
  induction p generalizing s with
  | done a => exact .refl
  | ask q next ih => exact .head (.ask (hanswer q s)) (ih _ _)
  | pause ms next ih => exact .head .pause (ih _)

end Program

end TableTail
