/-!
# Programs

A program is a value: it is done, or it asks the outside a question and goes on with the answer, or
it pauses and then goes on. What the questions mean is left to whoever runs it, so one program can
run against a real system, against one held in memory, or interleaved with others in any order.
-/

namespace TableTail

/-- A program that asks questions of type `Question`, with an answer type for each of them. -/
inductive Program (Question : Type) (Answer : Question → Type) (α : Type) : Type
  | done (value : α)
  | ask (question : Question) (next : Answer question → Program Question Answer α)
  | pause (milliseconds : Nat) (next : Program Question Answer α)

namespace Program

variable {Question : Type} {Answer : Question → Type} {α β σ : Type}

/-- The first program, and then the one for its value. -/
def bind : Program Question Answer α → (α → Program Question Answer β) → Program Question Answer β
  | done a, f => f a
  | ask q next, f => ask q fun a => (next a).bind f
  | pause ms next, f => pause ms (next.bind f)

instance : Monad (Program Question Answer) where
  pure := done
  bind := bind

/-- Asks one question. -/
def request (q : Question) : Program Question Answer (Answer q) := ask q done

@[simp] theorem pure_eq_done (a : α) : (pure a : Program Question Answer α) = done a := rfl

@[simp] theorem bind_eq (p : Program Question Answer α) (f : α → Program Question Answer β) :
    p >>= f = p.bind f := rfl

@[simp] theorem done_bind (a : α) (f : α → Program Question Answer β) : (done a).bind f = f a := rfl

@[simp] theorem ask_bind (q : Question) (next : Answer q → Program Question Answer α)
    (f : α → Program Question Answer β) :
    (ask q next).bind f = ask q fun a => (next a).bind f := rfl

@[simp] theorem pause_bind (ms : Nat) (next : Program Question Answer α)
    (f : α → Program Question Answer β) : (pause ms next).bind f = pause ms (next.bind f) := rfl

theorem bind_assoc {γ : Type} (p : Program Question Answer α)
    (f : α → Program Question Answer β) (g : β → Program Question Answer γ) :
    (p.bind f).bind g = p.bind fun a => (f a).bind g := by
  induction p with
  | done a => rfl
  | ask q next ih => simp [ih]
  | pause ms next ih => simp [ih]

/-- Answers a program's questions and lets time pass in its pauses, down to its value. -/
def run (answer : (q : Question) → σ → Answer q × σ) (wait : Nat → σ → σ) :
    Program Question Answer α → σ → α × σ
  | done a, s => (a, s)
  | ask q next, s => run answer wait (next (answer q s).1) (answer q s).2
  | pause ms next, s => run answer wait next (wait ms s)

theorem run_bind (answer : (q : Question) → σ → Answer q × σ) (wait : Nat → σ → σ)
    (p : Program Question Answer α) (f : α → Program Question Answer β) (s : σ) :
    run answer wait (p.bind f) s =
      run answer wait (f (run answer wait p s).1) (run answer wait p s).2 := by
  induction p generalizing s with
  | done a => rfl
  | ask q next ih => simp [run, ih]
  | pause ms next ih => simp [run, ih]

/-- Carries a program out in a monad, down to its value. -/
def carryOut {m : Type → Type} [Monad m] (answer : (q : Question) → m (Answer q))
    (wait : Nat → m Unit) : Program Question Answer α → m α
  | done a => return a
  | ask q next => do carryOut answer wait (next (← answer q))
  | pause ms next => do
    wait ms
    carryOut answer wait next

/-- Where a program stands when it cannot go on at once. -/
inductive Rest (Question : Type) (Answer : Question → Type) (α : Type)
  | ended (value : α)
  | paused (milliseconds : Nat) (next : Program Question Answer α)

/-- Runs a program up to its next pause. -/
def turn (answer : (q : Question) → σ → Answer q × σ) :
    Program Question Answer α → σ → Rest Question Answer α × σ
  | done a, s => (.ended a, s)
  | ask q next, s => turn answer (next (answer q s).1) (answer q s).2
  | pause ms next, s => (.paused ms next, s)

end Program

end TableTail
