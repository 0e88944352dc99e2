import TableTail.Process.Program

/-!
# Retrying

An attempt that may fail is repeated after a pause, a limited number of times. The pauses double up
to a longest one.
-/

namespace TableTail.Program

variable {Question : Type} {Answer : Question → Type} {α ε : Type}

/-- Makes an attempt and at most `retries` more, until one succeeds; the first pause is `delay`
milliseconds. The answer is the first success or the last failure. -/
def retry (attempt : Program Question Answer (Except ε α)) (longest : Nat) :
    (retries delay : Nat) → Program Question Answer (Except ε α)
  | 0, _ => attempt
  | retries + 1, delay =>
    attempt.bind fun outcome =>
      match outcome with
      | .ok a => done (.ok a)
      | .error _ => pause delay (retry attempt longest retries (min (2 * delay) longest))

end TableTail.Program
