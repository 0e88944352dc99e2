import TableTail.Process.Program

/-!
# Pools

Programs that run side by side, no more than a given number of them at a time. Time stands still
while a program runs and moves to the next wake-up when all are pausing; of the programs that are
ready, the one that has waited longest goes first.
-/

namespace TableTail

/-- A program and the time from which on it may run. -/
structure Task (Question : Type) (Answer : Question → Type) (α : Type) where
  wake : Nat
  program : Program Question Answer α

/-- Programs side by side: those not started, those running in the order in which they go on, and
the values of those that have ended. -/
structure Pool (Question : Type) (Answer : Question → Type) (α : Type) where
  width : Nat
  waiting : List (Program Question Answer α)
  active : List (Task Question Answer α)
  ended : List α

namespace Pool

variable {Question : Type} {Answer : Question → Type} {α σ : Type}

/-- Programs of which none has started; at least one may run at a time. -/
def start (width : Nat) (programs : List (Program Question Answer α)) : Pool Question Answer α :=
  ⟨max width 1, programs, [], []⟩

/-- Starts waiting programs while there is room. -/
def fill (now : Nat) (p : Pool Question Answer α) : Pool Question Answer α :=
  let room := p.width - p.active.length
  { p with
    waiting := p.waiting.drop room
    active := p.active ++ (p.waiting.take room).map fun program => ⟨now, program⟩ }

/-- The task that wakes first, and the others. -/
def earliest : List (Task Question Answer α) →
    Option (Task Question Answer α × List (Task Question Answer α))
  | [] => none
  | t :: rest =>
    match earliest rest with
    | none => some (t, [])
    | some (u, others) => if u.wake < t.wake then some (u, t :: others) else some (t, rest)

/-- The time at which a program may run. -/
def nextWake (p : Pool Question Answer α) : Option Nat := (earliest p.active).map (·.1.wake)

/-- Lets the program that wakes first run up to its next pause. -/
def turn (answer : (q : Question) → σ → Answer q × σ) (now : Nat) (p : Pool Question Answer α)
    (s : σ) : Pool Question Answer α × σ :=
  match earliest p.active with
  | none => (p, s)
  | some (t, others) =>
    match t.program.turn answer s with
    | (.ended a, s) => (fill now { p with active := others, ended := p.ended ++ [a] }, s)
    | (.paused ms next, s) => ({ p with active := others ++ [⟨now + ms, next⟩] }, s)

/-- Lets a pool run for a number of turns, or until all its programs have ended; `clock` sets the
time. The time at which that is, the pool and the state are answered. -/
def runFor (answer : (q : Question) → σ → Answer q × σ) (clock : Nat → σ → σ) :
    Nat → Nat → Pool Question Answer α → σ → Nat × Pool Question Answer α × σ
  | 0, now, p, s => (now, p, s)
  | turns + 1, now, p, s =>
    match p.nextWake with
    | none => (now, p, s)
    | some wake =>
      let now := max now wake
      let (p, s) := p.turn answer now (clock now s)
      runFor answer clock turns now p s

end Pool

end TableTail
