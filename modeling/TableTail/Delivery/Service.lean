import TableTail.Delivery.Pass

/-!
# The service

Passes follow each other until a stop is asked for: at once while a table has more rows waiting, and
after a pause otherwise. Checkpoints are flushed and new partitions discovered at intervals of
their own, in the middle of a pass too. A pass that has begun is always finished, and at the end
the checkpoints are flushed once more.
-/

namespace TableTail

/-- What a running service has to be told about its surroundings: how actions are answered, how the
time is set, and since when, if at all, a stop is asked for. -/
structure Surroundings (σ : Type) where
  answer : (a : Action) → σ → a.Answer × σ
  setTime : Nat → σ → σ
  stopTime : σ → Option Nat

/-- What the service does about its passes. -/
inductive Phase
  | passing (pool : Pool Action Action.Answer TablePoll)
  | resting (till : Nat)
  | stopped

/-- A running service: the time, and when the background tasks are due. -/
structure Service where
  now : Nat
  phase : Phase
  flushDue : Nat
  discoveryDue : Nat

namespace Service

/-- What happens next, and when. -/
inductive Event
  | turn
  | nextPass
  | flush
  | discovery
  | stop

/-- The earlier of two events, the first one if they are due at the same time. -/
def sooner (a b : Nat × Event) : Nat × Event := if b.1 < a.1 then b else a

variable {σ : Type}

/-- The event of the current phase. A stop is heeded between passes only; what is not due yet when
it is asked for does not happen. -/
def phaseEvent (w : Surroundings σ) (s : Service) (state : σ) : Nat × Event :=
  match s.phase with
  | .passing pool => (pool.nextWake.getD s.now, .turn)
  | .resting till =>
    match w.stopTime state with
    | some t => if t ≤ till then (max t s.now, .stop) else (till, .nextPass)
    | none => (till, .nextPass)
  | .stopped => (s.now, .stop)

/-- The next event. -/
def nextEvent (w : Surroundings σ) (s : Service) (state : σ) : Nat × Event :=
  sooner (sooner (phaseEvent w s state) (s.flushDue, .flush)) (s.discoveryDue, .discovery)

/-- Answers all questions of a program that does not pause. -/
def perform {α : Type} (w : Surroundings σ) (p : Activity α) (state : σ) : α × σ :=
  p.run w.answer (fun _ state => state) state

/-- The phase after a turn of a pass: still in it, or in the pause behind it. -/
def afterTurn (p : PollerSettings) (now : Nat) (pool : Pool Action Action.Answer TablePoll) :
    Phase :=
  if pool.active.isEmpty then
    .resting (now + if (PassStats.ofPolls pool.ended).filled then 0 else p.pollInterval)
  else .passing pool

/-- The phase at the start of a pass; one over no tables is over at once. -/
def beginPass (readers : List Reader) (p : PollerSettings) (now : Nat) : Phase :=
  afterTurn p now (Pass.start readers p now)

/-- Lets the next event happen. -/
def step (w : Surroundings σ) (root : String) (readers : List Reader) (p : PollerSettings)
    (s : Service) (state : σ) : Service × σ :=
  let (time, event) := nextEvent w s state
  let now := max s.now time
  let state := w.setTime now state
  match event, s.phase with
  | .turn, .passing pool =>
    let (pool, state) := pool.turn w.answer now state
    ({ s with now := now, phase := afterTurn p now pool }, state)
  | .turn, phase => ({ s with now := now, phase := phase }, state)
  | .nextPass, _ =>
    ({ s with now := now, phase := beginPass readers p now }, state)
  | .flush, _ =>
    let (_, state) := perform w (Registry.flush root readers) state
    ({ s with now := now, flushDue := now + p.flushInterval }, state)
  | .discovery, _ =>
    let (_, state) := perform w (Registry.discoverAll readers) state
    ({ s with now := now, discoveryDue := now + p.discoverInterval }, state)
  | .stop, _ => ({ s with now := now, phase := .stopped }, state)

/-- A service at its start, in its first pass. -/
def start (readers : List Reader) (p : PollerSettings) : Service :=
  ⟨0, beginPass readers p 0, p.flushInterval, p.discoverInterval⟩

/-- Lets events happen until the service has stopped, but no more than a given number of them. The
answer tells whether it has stopped. -/
def runFor (w : Surroundings σ) (root : String) (readers : List Reader) (p : PollerSettings) :
    Nat → Service → σ → Bool × σ
  | 0, _, state => (false, state)
  | events + 1, s, state =>
    match s.phase with
    | .stopped => (true, state)
    | _ =>
      let (s, state) := step w root readers p s state
      runFor w root readers p events s state

/-- How a service ended. -/
inductive Ending
  | flushed
  | unflushed (tables : Nat)
  | unfinished
  deriving DecidableEq, Repr

/-- The wording of an ending that is a failure. -/
def Ending.failure? : Ending → Option String
  | .flushed => none
  | .unflushed tables =>
    some ("Final checkpoint flush failed for " ++ Text.natText tables ++ " tables")
  | .unfinished => some "The poller did not stop"

/-- Runs a service to its stop and flushes the checkpoints a last time. -/
def run (w : Surroundings σ) (root : String) (readers : List Reader) (p : PollerSettings)
    (events : Nat) (state : σ) : Ending × σ :=
  match runFor w root readers p events (start readers p) state with
  | (false, state) => (.unfinished, state)
  | (true, state) =>
    match perform w (Registry.flush root readers) state with
    | (0, state) => (.flushed, state)
    | (failed + 1, state) => (.unflushed (failed + 1), state)

end Service

end TableTail
