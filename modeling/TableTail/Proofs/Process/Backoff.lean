import Mathlib.Data.ENat.Lattice
import TableTail.Process.Retry
import TableTail.Tail.Idle

/-!
# The schedule of retries

An operation that is retried is called again and again, with a pause after each call but the last.
Whatever the operation and its surroundings are, retrying it comes down to the attempt at which it
is left alone (`Program.run_retry`): the first that succeeds, or the last that is allowed. The
pauses are a function of their number (`Program.backoff`), for which there is a closed form
(`Program.backoff_eq`). Both together give the whole course of a retry (`Program.retry_course`).
-/

namespace TableTail.Program

section Delays

variable (longest first : ℕ)

/-- The pause after an attempt that failed, by the number of attempts before it. -/
def backoff : ℕ → ℕ
  | 0 => first
  | i + 1 => min (2 * backoff i) longest

/-- Behind the first pause, each is the first one doubled as often as there are pauses before it, up
to the longest. -/
theorem backoff_eq (i : ℕ) : backoff longest first (i + 1) = min (first * 2 ^ (i + 1)) longest := by
  induction i with
  | zero => rw [backoff, backoff, Nat.pow_one, Nat.mul_comm]
  | succ i ih =>
    -- what is cut down to the longest pause would be cut down after doubling as well
    have hcut : min (2 * min (first * 2 ^ (i + 1)) longest) longest =
        min (2 * (first * 2 ^ (i + 1))) longest := by omega
    rw [backoff, ih, hcut, Nat.pow_succ 2 (i + 1), Nat.mul_left_comm, Nat.mul_comm 2]

/-- No pause is longer than the first one and the longest. -/
lemma backoff_le (i : ℕ) : backoff longest first i ≤ max first longest := by
  cases i with
  | zero => exact le_max_left _ _
  | succ i => exact (min_le_right _ _).trans (le_max_right _ _)

/-- A first pause that is not too long is no exception. -/
lemma backoff_eq_of_le (h : first ≤ longest) (i : ℕ) :
    backoff longest first i = min (first * 2 ^ i) longest := by
  cases i with
  | zero => rw [backoff, Nat.pow_zero, Nat.mul_one, min_eq_left h]
  | succ i => exact backoff_eq longest first i

end Delays

variable {Question : Type} {Answer : Question → Type} {α ε σ : Type}

section Attempts

variable (answer : (q : Question) → σ → Answer q × σ) (wait : ℕ → σ → σ)
  (operation : Program Question Answer (Except ε α)) (longest : ℕ)

/-- What the attempts of an operation answer and leave when it is tried for ever: between two of
them is a pause. -/
def attempts (first : ℕ) (s : σ) : ℕ → Except ε α × σ
  | 0 => operation.run answer wait s
  | i + 1 => operation.run answer wait (wait (backoff longest first i) (attempts first s i).2)

variable {answer wait operation longest} {first : ℕ} {s : σ}

/-- The pauses after the first one start from its double. -/
lemma backoff_succ (longest first i : ℕ) :
    backoff longest first (i + 1) = backoff longest (min (2 * first) longest) i := by
  induction i with
  | zero => rfl
  | succ i ih => rw [backoff, ih, backoff]

/-- The attempts after the first one start from what it and the pause after it leave. -/
lemma attempts_succ (i : ℕ) :
    attempts answer wait operation longest first s (i + 1) =
      attempts answer wait operation longest (min (2 * first) longest)
        (wait first (operation.run answer wait s).2) i := by
  induction i with
  | zero => rfl
  | succ i ih => rw [attempts, ih, backoff_succ, attempts]

/-- Retrying an operation comes down to an attempt before which all have failed, if it succeeds or
is the last one. -/
theorem run_retry {retries n : ℕ}
    (hfailed : ∀ i < n, ∃ e, (attempts answer wait operation longest first s i).1 = .error e)
    (hn : n = retries ∨
      n < retries ∧ ∃ a, (attempts answer wait operation longest first s n).1 = .ok a) :
    (retry operation longest retries first).run answer wait s =
      attempts answer wait operation longest first s n := by
  induction n generalizing retries first s with
  | zero =>
    rcases hn with rfl | ⟨hlt, a, ha⟩
    · rfl
    · obtain ⟨retries, rfl⟩ := Nat.exists_eq_add_of_lt hlt
      change (operation.run answer wait s).1 = .ok a at ha
      rw [Nat.zero_add, retry, run_bind, ha]
      exact Prod.ext ha.symm rfl
  | succ n ih =>
    obtain ⟨retries, rfl⟩ : ∃ more, retries = more + 1 := ⟨retries - 1, by omega⟩
    obtain ⟨e, he⟩ := hfailed 0 (Nat.succ_pos n)
    change (operation.run answer wait s).1 = .error e at he
    rw [retry, run_bind, he, attempts_succ]
    refine ih (fun i hi => ?_) ?_
    · rw [← attempts_succ]
      exact hfailed (i + 1) (Nat.succ_lt_succ hi)
    · rw [← attempts_succ]
      exact hn.imp Nat.succ.inj (And.imp_left Nat.lt_of_succ_lt_succ)

end Attempts

section Course

/-- What happens when an operation is retried. -/
inductive Happening (ε α : Type)
  | called (outcome : Except ε α)
  | paused (milliseconds : ℕ)

/-- An operation of which nothing is known but that it answers something. -/
def call : Program Unit (fun _ => Except ε α) (Except ε α) := request ()

/-- Answers the next call of such an operation and notes it down. -/
def noteCall (outcomes : ℕ → Except ε α) :
    Unit → ℕ × List (Happening ε α) → Except ε α × ℕ × List (Happening ε α)
  | _, (calls, log) => (outcomes calls, calls + 1, log ++ [.called (outcomes calls)])

/-- Notes down a pause. -/
def notePause (milliseconds : ℕ) : ℕ × List (Happening ε α) → ℕ × List (Happening ε α)
  | (calls, log) => (calls, log ++ [.paused milliseconds])

/-- What a program that calls such an operation answers, and what happens meanwhile, when the
outcomes of the calls are given in their order. -/
def observed (outcomes : ℕ → Except ε α) (p : Program Unit (fun _ => Except ε α) (Except ε α)) :
    Except ε α × List (Happening ε α) :=
  let (result, _, log) := p.run (noteCall outcomes) notePause (0, [])
  (result, log)

/-- A number of calls with a pause after each of them. -/
def callsAndPauses (outcomes : ℕ → Except ε α) (longest first n : ℕ) : List (Happening ε α) :=
  (List.range n).flatMap fun i => [.called (outcomes i), .paused (backoff longest first i)]

/-- The number of failures before the first success, beyond all bounds if there is none. -/
noncomputable def failures (outcomes : ℕ → Except ε α) : ℕ∞ :=
  ⨅ (i : ℕ) (_ : ∃ a, outcomes i = .ok a), (i : ℕ∞)

variable {outcomes : ℕ → Except ε α}

/-- There are at least as many failures before the first success as there are at the beginning. -/
lemma le_failures_iff {n : ℕ} :
    (n : ℕ∞) ≤ failures outcomes ↔ ∀ i < n, ∃ e, outcomes i = .error e := by
  rw [failures, le_iInf₂_iff]
  constructor
  · intro h i hi
    cases hi' : outcomes i with
    | error e => exact ⟨e, rfl⟩
    | ok a => exact absurd (Nat.cast_le.1 (h i ⟨a, hi'⟩)) (Nat.not_le.2 hi)
  · rintro h i ⟨a, ha⟩
    refine Nat.cast_le.2 (Nat.not_lt.1 fun hi => ?_)
    obtain ⟨e, he⟩ := h i hi
    rw [ha] at he
    cases he

/-- The attempt at which an operation is left alone: all attempts before it have failed, and it is
the last one that is allowed or succeeds, which it does if there is a success in reach. -/
lemma exists_last (outcomes : ℕ → Except ε α) (retries : ℕ) :
    ∃ n : ℕ, (n : ℕ∞) = min (failures outcomes) retries ∧
      (∀ i < n, ∃ e, outcomes i = .error e) ∧
      (n = retries ∨ n < retries ∧ ∃ a, outcomes n = .ok a) ∧
      ((∃ a, outcomes n = .ok a) ↔ failures outcomes ≤ retries) := by
  obtain ⟨n, hn⟩ : ∃ n : ℕ, (n : ℕ∞) = min (failures outcomes) retries :=
    ENat.ne_top_iff_exists.1 (ne_top_of_le_ne_top (ENat.natCast_ne_top retries) (min_le_right _ _))
  have hfailed : ∀ i < n, ∃ e, outcomes i = .error e :=
    le_failures_iff.1 (hn.trans_le (min_le_left _ _))
  have hretries : n ≤ retries := Nat.cast_le.1 (hn.trans_le (min_le_right _ _))
  have hsucceeds : (∃ a, outcomes n = .ok a) ↔ failures outcomes ≤ retries := by
    cases houtcome : outcomes n with
    | ok a =>
      have hreach : failures outcomes ≤ n := iInf₂_le n ⟨a, houtcome⟩
      exact iff_of_true ⟨a, rfl⟩ (hreach.trans (Nat.cast_le.2 hretries))
    | error e =>
      -- the failures go on behind this one
      have hmore : ((n + 1 : ℕ) : ℕ∞) ≤ failures outcomes := by
        refine le_failures_iff.2 fun i hi => ?_
        rcases Nat.lt_succ_iff_lt_or_eq.1 hi with hlt | rfl
        · exact hfailed i hlt
        · exact ⟨e, houtcome⟩
      refine iff_of_false (fun ⟨a, ha⟩ => by cases ha) fun hreach => ?_
      rw [min_eq_left hreach] at hn
      exact Nat.not_succ_le_self n (Nat.cast_le.1 (hmore.trans hn.ge))
  refine ⟨n, hn, hfailed, ?_, hsucceeds⟩
  refine hretries.eq_or_lt.imp_right fun hlt => ⟨hlt, hsucceeds.2 ?_⟩
  by_contra hmore
  rw [min_eq_right (not_le.1 hmore).le] at hn
  exact hlt.ne (Nat.cast_inj.1 hn)

/-- The attempts of such an operation have the outcomes that are given, and leave behind a note of
what has happened so far. -/
lemma attempts_call (longest first i : ℕ) :
    attempts (noteCall outcomes) notePause call longest first (0, []) i =
      (outcomes i, i + 1, callsAndPauses outcomes longest first i ++ [.called (outcomes i)]) := by
  induction i with
  | zero => rfl
  | succ i ih =>
    rw [attempts, ih, callsAndPauses, callsAndPauses, List.range_succ]
    simp [call, request, run, noteCall, notePause]

/-- The course of a retry, whatever the outcomes of the calls are. The operation is called once more
than it fails before its first success, or than it may be retried, whichever comes first, and what
the last of these calls answers is answered: a success exactly if there is one in reach. Between two
calls is one pause and after the last one there is none. The first pause is as given and each other
one is twice the pause before it, up to the longest; doubling it never leaves the range of spans. If
the first pause is not too long, all are powers of two times this pause, up to the longest. -/
theorem retry_course (outcomes : ℕ → Except ε α) (retries : ℕ) (first longest : UInt64) :
    (∃ n : ℕ, (n : ℕ∞) = min (failures outcomes) retries ∧
      observed outcomes (retry call longest.toNat retries first.toNat) =
        (outcomes n, callsAndPauses outcomes longest.toNat first.toNat n ++
          [.called (outcomes n)]) ∧
      ((∃ a, outcomes n = .ok a) ↔ failures outcomes ≤ retries)) ∧
    (∀ i, 2 * backoff longest.toNat first.toNat i * 10 ^ 6 ≤ IdlePolicy.longestSpan) ∧
    (first ≤ longest → ∀ i,
      backoff longest.toNat first.toNat i = min (first.toNat * 2 ^ i) longest.toNat ∧
      backoff longest.toNat first.toNat i ≤ longest.toNat) := by
  refine ⟨?_, fun i => ?_, fun hle i => ?_⟩
  · obtain ⟨n, hn, hfailed, hlast, hsucceeds⟩ := exists_last outcomes retries
    have hrun :
        (retry call longest.toNat retries first.toNat).run (noteCall outcomes) notePause (0, []) =
          attempts (noteCall outcomes) notePause call longest.toNat first.toNat (0, []) n := by
      apply run_retry
      · intro i hi
        rw [attempts_call]
        exact hfailed i hi
      · rw [attempts_call]
        exact hlast
    refine ⟨n, hn, ?_, hsucceeds⟩
    rw [observed, hrun, attempts_call]
  · have hbackoff := backoff_le longest.toNat first.toNat i
    have hfirst := first.toNat_lt
    have hlongest := longest.toNat_lt
    unfold IdlePolicy.longestSpan
    omega
  · have heq := backoff_eq_of_le longest.toNat first.toNat (UInt64.le_iff_toNat_le.1 hle) i
    exact ⟨heq, heq.trans_le (min_le_right _ _)⟩

end Course

end TableTail.Program

namespace TableTail.Journal

open Program

/-- Two failures, and successes from then on. -/
def thirdTime (i : ℕ) : Except String ℕ := if i < 2 then .error "refused" else .ok i

/-- Of at most six calls three are made, with pauses of one and two seconds between them; further
pauses would be powers of two up to ten seconds. -/
theorem retry_course_third_time :
    observed thirdTime (retry call 10000 5 1000) = (.ok 2, [.called (.error "refused"),
      .paused 1000, .called (.error "refused"), .paused 2000, .called (.ok 2)]) ∧
    (1000 : UInt64) ≤ 10000 ∧ ∀ i, backoff 10000 1000 i = min (1000 * 2 ^ i) 10000 := by
  have hle : (1000 : UInt64) ≤ 10000 := by decide
  obtain ⟨⟨n, hn, hrun, -⟩, -, hpauses⟩ := retry_course thirdTime 5 1000 10000
  have hfailures : failures thirdTime = (2 : ℕ) := by
    refine le_antisymm (iInf₂_le 2 ⟨2, rfl⟩) (le_failures_iff.2 fun i hi => ?_)
    exact ⟨"refused", if_pos hi⟩
  obtain rfl : n = 2 := by
    rw [hfailures, min_eq_left (Nat.cast_le.2 (by decide))] at hn
    exact Nat.cast_inj.1 hn
  exact ⟨hrun, hle, fun i => (hpauses hle i).1⟩

end TableTail.Journal
