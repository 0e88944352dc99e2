import Mathlib.Data.List.Nodup
import Mathlib.Data.List.Perm.Basic
import TableTail.Process.Program

/-!
# Programs that keep to their shares

Programs that go on side by side ask their questions in names of their own (`Program.signed`), and
each name has a share of the state (`Sharing`). A program is separate when whatever it asks is
answered from its own share, changes nothing else and never has to wait (`Program.Separate`). What
such a program ends with, and what it leaves in its share, is what it ends with when it is run on
its share alone, and so it is for programs that are run one after the other
(`Program.runInOrder_signed`).
-/

namespace TableTail

namespace Program

variable {ι Question σ : Type} {Answer : Question → Type} {α : Type}

/-- A program that asks its questions in a name. -/
def signed (name : ι) :
    Program Question Answer α → Program (ι × Question) (fun q => Answer q.2) α
  | done a => done a
  | ask q next => ask (name, q) fun a => (next a).signed name
  | pause ms next => pause ms (next.signed name)

/-- A program without the names in which it asks. -/
def unsigned : Program (ι × Question) (fun q => Answer q.2) α → Program Question Answer α
  | done a => done a
  | ask q next => ask q.2 fun a => (next a).unsigned
  | pause ms next => pause ms next.unsigned

section Signed

variable {program : Program Question Answer α} {name : ι}

/-- A program that asks a question, by name. -/
lemma exists_of_signed_eq_ask {q : ι × Question}
    {next : Answer q.2 → Program (ι × Question) (fun q => Answer q.2) α}
    (h : program.signed name = .ask q next) :
    ∃ question rest, q = (name, question) ∧ program = .ask question rest ∧
      HEq next fun a => (rest a).signed name := by
  cases program with
  | done a => cases h
  | ask question rest =>
    cases h
    exact ⟨question, rest, rfl, rfl, .rfl⟩
  | pause ms rest => cases h

/-- A program that pauses, by name. -/
lemma exists_of_signed_eq_pause {ms : Nat}
    {next : Program (ι × Question) (fun q => Answer q.2) α}
    (h : program.signed name = .pause ms next) :
    ∃ rest, next = rest.signed name ∧ program = .pause ms rest := by
  cases program with
  | done a => cases h
  | ask question rest => cases h
  | pause ms rest =>
    cases h
    exact ⟨rest, rfl, rfl⟩

/-- A program that is done, by name. -/
lemma eq_done_of_signed {a : α} (h : program.signed name = .done a) : program = .done a := by
  cases program with
  | done a =>
    cases h
    rfl
  | ask question rest => cases h
  | pause ms rest => cases h

/-- Signing a program only adds the name. -/
lemma unsigned_signed (program : Program Question Answer α) (name : ι) :
    (program.signed name).unsigned = program := by
  induction program with
  | done a => rfl
  | ask q next ih => exact congrArg (ask q) (funext ih)
  | pause ms next ih => exact congrArg (pause ms) ih

end Signed

/-- The number of questions and pauses of a program that is run. -/
def actions (answer : (q : Question) → σ → Answer q × σ) : Program Question Answer α → σ → Nat
  | done _, _ => 0
  | ask q next, s => (next (answer q s).1).actions answer (answer q s).2 + 1
  | pause _ next, s => next.actions answer s + 1

/-- Runs programs one after the other. -/
def runInOrder (answer : (q : Question) → σ → Answer q × σ) :
    List (Program Question Answer α) → σ → List α × σ
  | [], s => ([], s)
  | p :: rest, s =>
    let (a, s) := p.run answer (fun _ s => s) s
    let (others, s) := runInOrder answer rest s
    (a :: others, s)

end Program

/-- A state of which each name has a share: when a question may be asked in a name and what it is
answered, and what it is answered when the name's share is all that there is. -/
structure Sharing (ι Question : Type) (Answer : Question → Type) (σ ς : Type) where
  ready : ι × Question → σ → Prop
  answer : (q : ι × Question) → σ → Answer q.2 × σ
  share : σ → ι → ς
  alone : ι → (q : Question) → ς → Answer q × ς

variable {ι Question σ ς : Type} {Answer : Question → Type} {α : Type}

namespace Sharing

variable (w : Sharing ι Question Answer σ ς)

/-- A question that may be asked in a name, is answered from its share, and changes no other one. -/
structure Separate (name : ι) (q : Question) (s : σ) : Prop where
  ready : w.ready (name, q) s
  answer : (w.answer (name, q) s).1 = (w.alone name q (w.share s name)).1
  own : w.share (w.answer (name, q) s).2 name = (w.alone name q (w.share s name)).2
  others : ∀ other, other ≠ name → w.share (w.answer (name, q) s).2 other = w.share s other

/-- What a program ends with, and the share that it leaves, when it is run on a share alone. -/
def ending (name : ι) (p : Program Question Answer α) (l : ς) : α × ς :=
  p.run (w.alone name) (fun _ l => l) l

/-- Named programs have ended, with values in some order: each of them as on its share alone, and
the other shares are as they were. -/
structure Ended (programs : List (ι × Program Question Answer α)) (s : σ) (values : List α)
    (s' : σ) : Prop where
  values : values.Perm (programs.map fun x => (w.ending x.1 x.2 (w.share s x.1)).1)
  shares : ∀ x ∈ programs, w.share s' x.1 = (w.ending x.1 x.2 (w.share s x.1)).2
  others : ∀ name, name ∉ programs.map Prod.fst → w.share s' name = w.share s name

variable {w}

/-- There is one way of having ended, but for the order of the values. -/
lemma Ended.agree {programs : List (ι × Program Question Answer α)} {s s₁ s₂ : σ}
    {values₁ values₂ : List α} (h₁ : w.Ended programs s values₁ s₁)
    (h₂ : w.Ended programs s values₂ s₂) :
    values₁.Perm values₂ ∧ ∀ name, w.share s₁ name = w.share s₂ name := by
  refine ⟨h₁.values.trans h₂.values.symm, fun name => ?_⟩
  by_cases hname : name ∈ programs.map Prod.fst
  · obtain ⟨x, hx, rfl⟩ := List.mem_map.1 hname
    rw [h₁.shares x hx, h₂.shares x hx]
  · rw [h₁.others name hname, h₂.others name hname]

end Sharing

namespace Program

/-- Whatever a program asks when it is run on a share is separate. -/
def Separate (w : Sharing ι Question Answer σ ς) (name : ι) :
    Program Question Answer α → ς → Prop
  | done _, _ => True
  | ask q next, l => (∀ s, w.share s name = l → w.Separate name q s) ∧
      (next (w.alone name q l).1).Separate w name (w.alone name q l).2
  | pause _ next, l => next.Separate w name l

variable {w : Sharing ι Question Answer σ ς} {name : ι}

/-- A separate program that is run on the whole state ends as it does on its share, and leaves the
other shares as they are. -/
theorem Separate.run_signed {p : Program Question Answer α} {s : σ}
    (h : p.Separate w name (w.share s name)) :
    ((p.signed name).run w.answer (fun _ s => s) s).1 = (w.ending name p (w.share s name)).1 ∧
    w.share ((p.signed name).run w.answer (fun _ s => s) s).2 name =
      (w.ending name p (w.share s name)).2 ∧
    ∀ other, other ≠ name →
      w.share ((p.signed name).run w.answer (fun _ s => s) s).2 other = w.share s other := by
  induction p generalizing s with
  | done a => exact ⟨rfl, rfl, fun _ _ => rfl⟩
  | ask q next ih =>
    obtain ⟨hask, hnext⟩ := h
    obtain ⟨-, hanswer, hown, hothers⟩ := hask s rfl
    rw [← hanswer, ← hown] at hnext
    obtain ⟨hvalue, hshare, hrest⟩ := ih _ hnext
    refine ⟨?_, ?_, fun other hne => (hrest other hne).trans (hothers other hne)⟩
    · exact hvalue.trans (by rw [Sharing.ending, Sharing.ending, run, hanswer, hown])
    · exact hshare.trans (by rw [Sharing.ending, Sharing.ending, run, hanswer, hown])
  | pause ms next ih => exact ih h

end Program

namespace Program

/-- Separate programs with different names that are run one after the other have ended as on their
shares. -/
theorem runInOrder_signed {w : Sharing ι Question Answer σ ς}
    {programs : List (ι × Program Question Answer α)} {s : σ}
    (hdistinct : (programs.map Prod.fst).Nodup)
    (hseparate : ∀ x ∈ programs, x.2.Separate w x.1 (w.share s x.1)) :
    w.Ended programs s (runInOrder w.answer (programs.map fun x => x.2.signed x.1) s).1
      (runInOrder w.answer (programs.map fun x => x.2.signed x.1) s).2 := by
  induction programs generalizing s with
  | nil => exact ⟨.refl _, fun x hx => absurd hx List.not_mem_nil, fun _ _ => rfl⟩
  | cons y rest ih =>
    obtain ⟨name, p⟩ := y
    obtain ⟨hnew, hdistinct⟩ := List.nodup_cons.1 hdistinct
    obtain ⟨hvalue, hown, hothers⟩ := (hseparate _ List.mem_cons_self).run_signed
    dsimp only at hvalue hown hothers
    have hkept : ∀ x ∈ rest, w.share ((p.signed name).run w.answer (fun _ s => s) s).2 x.1 =
        w.share s x.1 := by
      intro x hx
      have hx' : x.1 ∈ rest.map Prod.fst := List.mem_map_of_mem hx
      exact hothers _ fun heq => hnew (heq ▸ hx')
    obtain ⟨hvalues, howns, hrest⟩ := ih
      (s := ((p.signed name).run w.answer (fun _ s => s) s).2) hdistinct fun x hx => by
        rw [hkept x hx]
        exact hseparate x (List.mem_cons_of_mem _ hx)
    refine ⟨?_, ?_, ?_⟩
    · have hsame : rest.map (fun x => (w.ending x.1 x.2 (w.share
            ((p.signed name).run w.answer (fun _ s => s) s).2 x.1)).1) =
          rest.map fun x => (w.ending x.1 x.2 (w.share s x.1)).1 :=
        List.map_congr_left fun x hx => by rw [hkept x hx]
      rw [hsame] at hvalues
      refine (hvalues.cons _).trans ?_
      rw [hvalue]
      exact .refl _
    · intro x hx
      rcases List.mem_cons.1 hx with rfl | hx
      · exact (hrest _ hnew).trans hown
      · exact (howns x hx).trans (by rw [hkept x hx])
    · intro other hother
      rw [List.map_cons, List.mem_cons, not_or] at hother
      exact (hrest other hother.2).trans (hothers other hother.1)

end Program

end TableTail
