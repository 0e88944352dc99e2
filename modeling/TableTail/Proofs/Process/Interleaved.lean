import Mathlib.Algebra.GroupWithZero.Nat
import TableTail.Process.Pool
import TableTail.Proofs.Process.Ensures
import TableTail.Proofs.Process.Shares

/-!
# Pools of separate programs

The programs of a pool may go on in any order, as long as no more of them are active than there is
room for (`Pool.Step`); the order that the pool itself takes is one of them (`Pool.Apart.runFor`).

If all programs of a pool are separate, they stay so with each step, on their way to the same ends
(`Pool.Apart.step`). So the order of the steps does not matter (`Pool.run_isOver`). Each step is one
of a number of steps that is known from the start, and no program ever waits, so a pool always comes
to its end (`Pool.Apart.acc`, `Pool.Apart.exists_step`).
-/

namespace TableTail

variable {ι Question σ ς : Type} {Answer : Question → Type} {α : Type}

namespace Pool

/-! ## Steps -/

/-- One step of a pool: a waiting program is started while there is room, or an active one asks a
question, pauses, or ends. -/
inductive Step (ready : Question → σ → Prop) (answer : (q : Question) → σ → Answer q × σ) :
    Pool Question Answer α × σ → Pool Question Answer α × σ → Prop
  | starts {p : Pool Question Answer α} {s : σ} {before after : List (Program Question Answer α)}
      {program : Program Question Answer α} (wake : Nat)
      (hwaiting : p.waiting = before ++ program :: after) (hroom : p.active.length < p.width) :
      Step ready answer (p, s)
        ({ p with waiting := before ++ after, active := p.active ++ [⟨wake, program⟩] }, s)
  | asks {p : Pool Question Answer α} {s : σ} {before after : List (Task Question Answer α)}
      {wake : Nat} {q : Question} {next : Answer q → Program Question Answer α}
      (hactive : p.active = before ++ ⟨wake, .ask q next⟩ :: after) (hready : ready q s) :
      Step ready answer (p, s)
        ({ p with active := before ++ ⟨wake, next (answer q s).1⟩ :: after }, (answer q s).2)
  | pauses {p : Pool Question Answer α} {s : σ} {before after : List (Task Question Answer α)}
      {wake ms : Nat} {next : Program Question Answer α} (wake' : Nat)
      (hactive : p.active = before ++ ⟨wake, .pause ms next⟩ :: after) :
      Step ready answer (p, s) ({ p with active := before ++ after ++ [⟨wake', next⟩] }, s)
  | ends {p : Pool Question Answer α} {s : σ} {before after : List (Task Question Answer α)}
      {wake : Nat} {a : α} (hactive : p.active = before ++ ⟨wake, .done a⟩ :: after) :
      Step ready answer (p, s) ({ p with active := before ++ after, ended := p.ended ++ [a] }, s)

/-- Any number of steps. -/
abbrev Run (ready : Question → σ → Prop) (answer : (q : Question) → σ → Answer q × σ) :
    Pool Question Answer α × σ → Pool Question Answer α × σ → Prop :=
  Relation.ReflTransGen (Step ready answer)

/-- The programs that have not ended. -/
def programs (p : Pool Question Answer α) : List (Program Question Answer α) :=
  p.waiting ++ p.active.map (·.program)

/-- All programs have ended. -/
def IsOver (p : Pool Question Answer α) : Prop := p.waiting = [] ∧ p.active = []

/-- An active program and the other ones. -/
lemma programs_perm {p : Pool Question Answer α} {before after : List (Task Question Answer α)}
    {t : Task Question Answer α} (hactive : p.active = before ++ t :: after) :
    p.programs.Perm (t.program :: (p.waiting ++ (before ++ after).map (·.program))) := by
  have hmiddle : (p.active.map (·.program)).Perm
      (t.program :: (before ++ after).map (·.program)) := by
    rw [hactive]
    exact List.perm_middle.map _
  exact (hmiddle.append_left p.waiting).trans List.perm_middle

/-! ## Separate programs -/

/-- A pool all of whose programs are separate, with the names of those that have ended and of those
that have not, and with the number of steps that are left: each program is started, acts, and ends.
What has come of the former and what will come of the latter are given endings. -/
structure Apart (w : Sharing ι Question Answer σ ς) (start : σ) (endings : List (ι × α × ς))
    (p : Pool (ι × Question) (fun q => Answer q.2) α) (s : σ) (gone : List (ι × α))
    (going : List (ι × Program Question Answer α)) (left : Nat) : Prop where
  distinct : (endings.map Prod.fst).Nodup
  room : 0 < p.width
  programs : p.programs.Perm (going.map fun x => x.2.signed x.1)
  ended : p.ended = gone.map Prod.snd
  outcomes : (gone.map (fun e => (e.1, e.2, w.share s e.1)) ++
    going.map fun x => (x.1, w.ending x.1 x.2 (w.share s x.1))).Perm endings
  separate : ∀ x ∈ going, x.2.Separate w x.1 (w.share s x.1)
  others : ∀ name, name ∉ endings.map Prod.fst → w.share s name = w.share start name
  left : (going.map fun x => x.2.actions (w.alone x.1) (w.share s x.1)).sum + p.active.length +
    2 * p.waiting.length = left

namespace Apart

variable {w : Sharing ι Question Answer σ ς} {start s s' : σ} {endings : List (ι × α × ς)}
  {p p' : Pool (ι × Question) (fun q => Answer q.2) α} {gone : List (ι × α)}
  {going others : List (ι × Program Question Answer α)} {left : Nat} {name : ι}
  {program program' : Program Question Answer α}
  {before after : List (Task (ι × Question) (fun q => Answer q.2) α)} {wake : Nat}

/-- The names are those of the endings. -/
lemma names (h : Apart w start endings p s gone going left) :
    (gone.map Prod.fst ++ going.map Prod.fst).Perm (endings.map Prod.fst) := by
  have hmapped := h.outcomes.map Prod.fst
  rw [List.map_append, List.map_map, List.map_map] at hmapped
  exact hmapped

/-- The programs that have not ended have no order. -/
lemma perm (h : Apart w start endings p s gone going left) (hperm : going.Perm others) :
    Apart w start endings p s gone others left where
  distinct := h.distinct
  room := h.room
  programs := h.programs.trans (hperm.map _)
  ended := h.ended
  outcomes := ((hperm.map _).symm.append_left _).trans h.outcomes
  separate x hx := h.separate x (hperm.mem_iff.2 hx)
  others := h.others
  left := by
    rw [← h.left, (hperm.map _).sum_nat]

/-- One of the programs that have not ended is set apart. -/
lemma pick (h : Apart w start endings p s gone going left)
    {signed : Program (ι × Question) (fun q => Answer q.2) α}
    {rest : List (Program (ι × Question) (fun q => Answer q.2) α)}
    (hprograms : p.programs.Perm (signed :: rest)) :
    ∃ name program others, program.signed name = signed ∧
      Apart w start endings p s gone ((name, program) :: others) left ∧
      rest.Perm (others.map fun x => x.2.signed x.1) := by
  have hmem : signed ∈ going.map fun x => x.2.signed x.1 :=
    h.programs.mem_iff.1 (hprograms.mem_iff.2 List.mem_cons_self)
  obtain ⟨x, hx, rfl⟩ := List.mem_map.1 hmem
  obtain ⟨before, after, rfl⟩ := List.append_of_mem hx
  have hperm : (before ++ x :: after).Perm (x :: (before ++ after)) := List.perm_middle
  refine ⟨x.1, x.2, before ++ after, rfl, h.perm hperm, ?_⟩
  exact (hprograms.symm.trans (h.programs.trans (hperm.map _))).cons_inv

/-- A program that goes on within its share, to the same ending. -/
lemma goesOn (h : Apart w start endings p s gone ((name, program) :: others) left)
    (hwidth : p'.width = p.width) (hended : p'.ended = p.ended)
    (hprograms : p'.programs.Perm
      (program'.signed name :: others.map fun x => x.2.signed x.1))
    (hshares : ∀ other, other ≠ name → w.share s' other = w.share s other)
    (hending : w.ending name program' (w.share s' name) = w.ending name program (w.share s name))
    (hseparate : program'.Separate w name (w.share s' name))
    (hactions : program'.actions (w.alone name) (w.share s' name) + p'.active.length +
      2 * p'.waiting.length + 1 = program.actions (w.alone name) (w.share s name) +
      p.active.length + 2 * p.waiting.length) :
    ∃ left', Apart w start endings p' s' gone ((name, program') :: others) left' ∧
      left' + 1 = left := by
  have hnodup := h.names.nodup_iff.2 h.distinct
  rw [List.map_cons, List.nodup_append] at hnodup
  obtain ⟨-, hgoing, hapart⟩ := hnodup
  -- All other programs have other names, and so the shares that they had.
  have hgone : ∀ e ∈ gone, w.share s' e.1 = w.share s e.1 := by
    intro e he
    exact hshares _ (hapart _ (List.mem_map_of_mem he) _ List.mem_cons_self)
  have hothers : ∀ x ∈ others, w.share s' x.1 = w.share s x.1 := by
    intro x hx
    have hx' : x.1 ∈ others.map Prod.fst := List.mem_map_of_mem hx
    exact hshares _ fun heq => (List.nodup_cons.1 hgoing).1 (heq ▸ hx')
  have hmem : name ∈ endings.map Prod.fst :=
    h.names.mem_iff.1 (List.mem_append_right _ List.mem_cons_self)
  refine ⟨_, ⟨h.distinct, hwidth ▸ h.room, hprograms, hended.trans h.ended, ?_, ?_, ?_, rfl⟩, ?_⟩
  · rw [List.map_cons, hending,
      List.map_congr_left fun e he => congrArg (fun l => (e.1, e.2, l)) (hgone e he),
      List.map_congr_left fun x hx =>
        congrArg (fun l => (x.1, w.ending x.1 x.2 l)) (hothers x hx)]
    exact h.outcomes
  · intro x hx
    rcases List.mem_cons.1 hx with rfl | hx
    · exact hseparate
    · rw [hothers x hx]
      exact h.separate x (List.mem_cons_of_mem _ hx)
  · intro other hother
    have hne : other ≠ name := by
      rintro rfl
      exact hother hmem
    exact (hshares other hne).trans (h.others other hother)
  · have hleft := h.left
    rw [List.map_cons, List.sum_cons] at hleft
    rw [List.map_cons, List.sum_cons, List.map_congr_left fun x hx =>
      congrArg (x.2.actions (w.alone x.1)) (hothers x hx)]
    dsimp only at hleft ⊢
    omega

/-- A program that ends. -/
lemma ends {a : α} (h : Apart w start endings p s gone ((name, .done a) :: others) left)
    (hwidth : p'.width = p.width) (hended : p'.ended = p.ended ++ [a])
    (hprograms : p'.programs.Perm (others.map fun x => x.2.signed x.1))
    (hactive : p'.active.length + 1 = p.active.length) (hwaiting : p'.waiting = p.waiting) :
    ∃ left', Apart w start endings p' s (gone ++ [(name, a)]) others left' ∧
      left' + 1 = left := by
  refine ⟨_, ⟨h.distinct, hwidth ▸ h.room, hprograms, ?_, ?_, ?_, h.others, rfl⟩, ?_⟩
  · rw [hended, h.ended, List.map_append, List.map_singleton]
  · rw [List.map_append, List.map_singleton, List.append_assoc]
    exact h.outcomes
  · intro x hx
    exact h.separate x (List.mem_cons_of_mem _ hx)
  · have hleft := h.left
    rw [List.map_cons, List.sum_cons] at hleft
    rw [hwaiting]
    dsimp only [Program.actions] at hleft
    omega

/-- Each step leaves the programs separate, with one step less to go. -/
theorem step (h : Apart w start endings p s gone going left)
    (hstep : Step w.ready w.answer (p, s) (p', s')) :
    ∃ gone' going' left', Apart w start endings p' s' gone' going' left' ∧ left' + 1 = left := by
  cases hstep with
  | @starts _ _ before after signed wake hwaiting hroom =>
    have hprograms : p.programs.Perm
        (signed :: (before ++ after ++ p.active.map (·.program))) := by
      rw [Pool.programs, hwaiting, List.append_assoc, List.append_assoc, List.cons_append]
      exact List.perm_middle
    obtain ⟨name, program, others, rfl, h, hrest⟩ := h.pick hprograms
    refine ⟨gone, (name, program) :: others, h.goesOn rfl rfl ?_ (fun _ _ => rfl) rfl
      (h.separate _ List.mem_cons_self) ?_⟩
    · refine List.Perm.trans ?_ (hrest.cons _)
      simp only [Pool.programs, List.map_append, List.map_cons, List.map_nil, ← List.append_assoc]
      exact List.perm_append_singleton _ _
    · simp only [hwaiting, List.length_append, List.length_cons, List.length_nil]
      omega
  | @asks _ _ before after wake q next hactive hready =>
    obtain ⟨name, program, others, hsigned, h, hrest⟩ := h.pick (programs_perm hactive)
    obtain ⟨question, rest, rfl, rfl, hnext⟩ := Program.exists_of_signed_eq_ask hsigned
    obtain rfl := eq_of_heq hnext
    -- The answer and the share that it leaves are those of the program on its share alone.
    obtain ⟨hask, hseparate⟩ := h.separate _ List.mem_cons_self
    obtain ⟨-, hanswer, hown, hothers⟩ := hask s rfl
    refine ⟨gone, (name, rest (w.answer (name, question) s).1) :: others,
      h.goesOn rfl rfl ((programs_perm rfl).trans (hrest.cons _)) hothers ?_ ?_ ?_⟩
    · rw [hown, hanswer]
      rfl
    · rw [hown, hanswer]
      exact hseparate
    · rw [hown, hanswer, hactive]
      simp only [Program.actions, List.length_append, List.length_cons]
      omega
  | @pauses _ _ before after wake ms next wake' hactive =>
    obtain ⟨name, program, others, hsigned, h, hrest⟩ := h.pick (programs_perm hactive)
    obtain ⟨rest, rfl, rfl⟩ := Program.exists_of_signed_eq_pause hsigned
    -- The program goes behind the others, so it has an empty list behind it.
    rw [← List.append_nil (before ++ after)] at hrest
    have hprograms := (programs_perm (p := { p with
      active := before ++ after ++ [⟨wake', rest.signed name⟩] }) rfl).trans (hrest.cons _)
    refine ⟨gone, (name, rest) :: others, h.goesOn rfl rfl hprograms (fun _ _ => rfl) rfl
      (h.separate _ List.mem_cons_self) ?_⟩
    rw [hactive]
    simp only [Program.actions, List.length_append, List.length_cons, List.length_nil]
    omega
  | @ends _ _ before after wake a hactive =>
    obtain ⟨name, program, others, hsigned, h, hrest⟩ := h.pick (programs_perm hactive)
    obtain rfl := Program.eq_done_of_signed hsigned
    refine ⟨gone ++ [(name, a)], others, h.ends rfl rfl hrest ?_ rfl⟩
    rw [hactive, List.length_append, List.length_append, List.length_cons, Nat.add_assoc]

/-- After any steps the programs are separate, on their way to the same endings. -/
theorem run (h : Apart w start endings p s gone going left)
    (hrun : Run w.ready w.answer (p, s) (p', s')) :
    ∃ gone' going' left', Apart w start endings p' s' gone' going' left' := by
  have hall : ∀ x, Run w.ready w.answer (p, s) x →
      ∃ gone' going' left', Apart w start endings x.1 x.2 gone' going' left' := by
    intro x hx
    induction hx with
    | refl => exact ⟨gone, going, left, h⟩
    | tail _ hstep ih =>
      obtain ⟨_, _, _, h'⟩ := ih
      obtain ⟨gone'', going'', left'', h'', -⟩ := h'.step hstep
      exact ⟨gone'', going'', left'', h''⟩
  exact hall _ hrun

/-- No steps go on for ever. -/
theorem acc (h : Apart w start endings p s gone going left) :
    Acc (fun y x => Step w.ready w.answer x y) (p, s) := by
  induction left generalizing p s gone going with
  | zero =>
    refine ⟨_, fun y hstep => ?_⟩
    obtain ⟨_, _, left', -, hleft⟩ := h.step hstep
    omega
  | succ left ih =>
    refine ⟨_, fun y hstep => ?_⟩
    obtain ⟨_, _, left', h', hleft⟩ := h.step hstep
    obtain rfl : left' = left := by omega
    exact ih h'

/-- The question that an active program asks may be asked. -/
lemma ready {q : ι × Question}
    {next : Answer q.2 → Program (ι × Question) (fun q => Answer q.2) α}
    (h : Apart w start endings p s gone going left)
    (hactive : p.active = before ++ ⟨wake, .ask q next⟩ :: after) : w.ready q s := by
  obtain ⟨name, program, others, hsigned, h, -⟩ := h.pick (programs_perm hactive)
  obtain ⟨question, rest, rfl, rfl, -⟩ := Program.exists_of_signed_eq_ask hsigned
  exact ((h.separate _ List.mem_cons_self).1 s rfl).ready

/-- No program has to wait: as long as not all have ended, there is a step. -/
theorem exists_step (h : Apart w start endings p s gone going left) (hover : ¬ p.IsOver) :
    ∃ x, Step w.ready w.answer (p, s) x := by
  cases hactive : p.active with
  | nil =>
    cases hwaiting : p.waiting with
    | nil => exact absurd ⟨hwaiting, hactive⟩ hover
    | cons program rest =>
      have hroom : p.active.length < p.width := by
        rw [hactive]
        exact h.room
      have hfirst : p.waiting = [] ++ program :: rest := hwaiting
      exact ⟨_, .starts 0 hfirst hroom⟩
  | cons t rest =>
    obtain ⟨wake, program⟩ := t
    have hfirst : p.active = [] ++ ⟨wake, program⟩ :: rest := hactive
    cases program with
    | done a => exact ⟨_, .ends hfirst⟩
    | ask q next => exact ⟨_, .asks hfirst (h.ready hfirst)⟩
    | pause ms next => exact ⟨_, .pauses wake hfirst⟩

/-- When all programs have ended, what has come of them are the endings, in some order. -/
theorem isOver (h : Apart w start endings p s gone going left) (hover : p.IsOver) :
    p.ended.Perm (endings.map fun e => e.2.1) ∧ ∀ e ∈ endings, w.share s e.1 = e.2.2 := by
  have hgoing : going = [] := by
    have hnil := h.programs
    rw [Pool.programs, hover.1, hover.2] at hnil
    exact List.map_eq_nil_iff.1 hnil.symm.eq_nil
  have houtcomes := h.outcomes
  rw [hgoing, List.map_nil, List.append_nil] at houtcomes
  constructor
  · have hvalues := houtcomes.map fun e => e.2.1
    rw [List.map_map] at hvalues
    rw [h.ended]
    exact hvalues
  · intro e he
    obtain ⟨x, -, rfl⟩ := List.mem_map.1 (houtcomes.mem_iff.2 he)
    rfl

/-- Separate programs with different names, of which none has started. -/
theorem opening {programs : List (ι × Program Question Answer α)}
    (hdistinct : (programs.map Prod.fst).Nodup)
    (hseparate : ∀ x ∈ programs, x.2.Separate w x.1 (w.share s x.1)) (width : Nat) :
    ∃ left, Apart w s (programs.map fun x => (x.1, w.ending x.1 x.2 (w.share s x.1)))
      (Pool.start width (programs.map fun x => x.2.signed x.1)) s [] programs left := by
  have hnames : (programs.map fun x => (x.1, w.ending x.1 x.2 (w.share s x.1))).map Prod.fst =
      programs.map Prod.fst := by
    rw [List.map_map]
    rfl
  refine ⟨_, hnames ▸ hdistinct, ?_, ?_, rfl, .refl _, hseparate, fun _ _ => rfl, rfl⟩
  · exact Nat.lt_of_lt_of_le Nat.zero_lt_one (Nat.le_max_right _ _)
  · rw [Pool.programs, Pool.start, List.map_nil, List.append_nil]

end Apart

/-! ## The pool's own order -/

/-- Starting programs while there is room is steps. -/
lemma run_fill (ready : Question → σ → Prop) (answer : (q : Question) → σ → Answer q × σ)
    (now : Nat) (p : Pool Question Answer α) (s : σ) :
    Run ready answer (p, s) (p.fill now, s) := by
  obtain ⟨width, waiting, active, ended⟩ := p
  induction waiting generalizing active with
  | nil =>
    simp only [fill, List.drop_nil, List.take_nil, List.map_nil, List.append_nil]
    exact .refl
  | cons program rest ih =>
    by_cases hroom : active.length < width
    · have hfirst : program :: rest = [] ++ program :: rest := rfl
      have hstep : Step ready answer (⟨width, program :: rest, active, ended⟩, s)
          (⟨width, rest, active ++ [⟨now, program⟩], ended⟩, s) :=
        .starts (p := ⟨width, program :: rest, active, ended⟩) now hfirst hroom
      obtain ⟨room, hroom'⟩ := Nat.exists_eq_succ_of_ne_zero (Nat.sub_ne_zero_of_lt hroom)
      have hfill : fill now ⟨width, program :: rest, active, ended⟩ =
          fill now ⟨width, rest, active ++ [⟨now, program⟩], ended⟩ := by
        have hless : width - (active ++ [(⟨now, program⟩ : Task Question Answer α)]).length =
            room := by
          rw [List.length_append, List.length_singleton]
          omega
        simp only [fill, hless, hroom', List.drop_succ_cons, List.take_succ_cons, List.map_cons,
          List.append_assoc, List.singleton_append]
      rw [hfill]
      exact .head hstep (ih _)
    · have hnone : width - active.length = 0 := Nat.sub_eq_zero_of_le (Nat.le_of_not_lt hroom)
      simp only [fill, hnone, List.drop_zero, List.take_zero, List.map_nil, List.append_nil]
      exact .refl

/-- The task that wakes first is one of the tasks. -/
lemma exists_of_earliest {tasks others : List (Task Question Answer α)}
    {t : Task Question Answer α} (h : earliest tasks = some (t, others)) :
    ∃ before after, tasks = before ++ t :: after ∧ others = before ++ after := by
  induction tasks generalizing t others with
  | nil => cases h
  | cons u rest ih =>
    unfold earliest at h
    split at h
    · next hrest =>
      obtain ⟨rfl, rfl⟩ := Prod.mk.inj (Option.some.inj h)
      cases rest with
      | nil => exact ⟨[], [], rfl, rfl⟩
      | cons v rest =>
        unfold earliest at hrest
        split at hrest
        · cases hrest
        · split at hrest <;> cases hrest
    · next v rest' hrest =>
      split at h
      · obtain ⟨rfl, rfl⟩ := Prod.mk.inj (Option.some.inj h)
        obtain ⟨before, after, rfl, rfl⟩ := ih hrest
        exact ⟨u :: before, after, rfl, rfl⟩
      · obtain ⟨rfl, rfl⟩ := Prod.mk.inj (Option.some.inj h)
        exact ⟨[], rest, rfl, rfl⟩

namespace Apart

variable {w : Sharing ι Question Answer σ ς} {start s s' : σ} {endings : List (ι × α × ς)}
  {p p' : Pool (ι × Question) (fun q => Answer q.2) α} {gone : List (ι × α)}
  {going : List (ι × Program Question Answer α)} {left : Nat}

/-- A program that runs up to its next pause takes steps. -/
lemma run_rest {before after : List (Task (ι × Question) (fun q => Answer q.2) α)} {wake : Nat}
    {program : Program (ι × Question) (fun q => Answer q.2) α}
    (h : Apart w start endings p s gone going left)
    (hactive : p.active = before ++ ⟨wake, program⟩ :: after) :
    (∀ a, program.turn w.answer s = (.ended a, s') → Run w.ready w.answer (p, s)
      ({ p with active := before ++ after, ended := p.ended ++ [a] }, s')) ∧
    ∀ ms next wake', program.turn w.answer s = (.paused ms next, s') → Run w.ready w.answer (p, s)
      ({ p with active := before ++ after ++ [⟨wake', next⟩] }, s') := by
  induction program generalizing p s gone going left with
  | done a =>
    constructor
    · intro b hturn
      obtain ⟨hvalue, rfl⟩ := Prod.mk.inj hturn
      obtain rfl := Program.Rest.ended.inj hvalue
      exact .single (.ends hactive)
    · intro ms next wake' hturn
      cases hturn
  | ask q next ih =>
    have hstep : Step w.ready w.answer (p, s) _ := .asks hactive (h.ready hactive)
    obtain ⟨gone', going', left', h', -⟩ := h.step hstep
    obtain ⟨hended, hpaused⟩ := ih _ h' rfl
    constructor
    · intro a hturn
      exact .head hstep (hended a hturn)
    · intro ms rest wake' hturn
      exact .head hstep (hpaused ms rest wake' hturn)
  | pause ms next =>
    constructor
    · intro a hturn
      cases hturn
    · intro ms' next' wake' hturn
      obtain ⟨hvalue, rfl⟩ := Prod.mk.inj hturn
      obtain ⟨rfl, rfl⟩ := Program.Rest.paused.inj hvalue
      exact .single (.pauses wake' hactive)

/-- A turn of a pool is steps. -/
theorem turn (h : Apart w start endings p s gone going left) (now : Nat) :
    Run w.ready w.answer (p, s) (p.turn w.answer now s) := by
  unfold Pool.turn
  split
  · exact .refl
  · next t others hearliest =>
    obtain ⟨before, after, hactive, rfl⟩ := exists_of_earliest hearliest
    split
    · next a s' hturn => exact ((h.run_rest hactive).1 a hturn).trans (run_fill _ _ now _ s')
    · next ms rest s' hturn => exact (h.run_rest hactive).2 ms rest _ hturn

/-- Turns of a pool are steps. -/
theorem runFor (h : Apart w start endings p s gone going left) (turns now : Nat) :
    Run w.ready w.answer (p, s) (p.runFor w.answer (fun _ s => s) turns now s).2 := by
  induction turns generalizing p s gone going left now with
  | zero => exact .refl
  | succ turns ih =>
    unfold Pool.runFor
    split
    · exact .refl
    · next wake _ =>
      have hturn := h.turn (max now wake)
      obtain ⟨gone', going', left', h'⟩ := h.run hturn
      exact hturn.trans (ih h' _)

end Apart

/-- However separate programs with different names are interleaved: when all have ended, they have
ended as on their shares. -/
theorem run_isOver {w : Sharing ι Question Answer σ ς}
    {programs : List (ι × Program Question Answer α)} {s s' : σ} {width : Nat}
    {p : Pool (ι × Question) (fun q => Answer q.2) α}
    (hdistinct : (programs.map Prod.fst).Nodup)
    (hseparate : ∀ x ∈ programs, x.2.Separate w x.1 (w.share s x.1))
    (hrun : Run w.ready w.answer (start width (programs.map fun x => x.2.signed x.1), s) (p, s'))
    (hover : p.IsOver) : w.Ended programs s p.ended s' := by
  obtain ⟨left, hopening⟩ := Apart.opening hdistinct hseparate width
  obtain ⟨gone, going, left', h⟩ := hopening.run hrun
  obtain ⟨hended, hshares⟩ := h.isOver hover
  rw [List.map_map] at hended
  refine ⟨hended, fun x hx => hshares _ (List.mem_map_of_mem hx), fun name hname => ?_⟩
  refine h.others name fun hmem => hname ?_
  rw [List.map_map] at hmem
  exact hmem

end Pool

end TableTail
