import TableTail.Number.Power

/-!
# The idle gate

A unit that returned no rows is asked less often: after `count` empty polls in a row, not before
`interval * count`, or the maximum, has passed since the first of them. Times are counted from some
beginning in one unit, that of the policy, which is a millisecond where the policy comes from a
configuration and may be as short as a nanosecond.
-/

namespace TableTail

/-- The pace at which idle units are polled. -/
structure IdlePolicy where
  interval : Nat
  max : Nat
  deriving DecidableEq, Repr

namespace IdlePolicy

/-- The longest span of time, in nanoseconds: one less than `2 ^ 64` seconds. A span that is
multiplied beyond it is cut down to it. -/
def longestSpan : Nat := 2 ^ 64 * 10 ^ 9 - 1

/-- The wait after a number of empty polls in a row. -/
def delay (policy : IdlePolicy) (count : Nat) : Nat :=
  min (min (policy.interval * count) longestSpan) policy.max

end IdlePolicy

/-- An idle unit: the time of its first empty poll, and the number of them. -/
structure Idle where
  since : Nat
  count : Nat
  deriving DecidableEq, Repr

namespace Idle

/-- The greatest count that is kept. -/
def maxCount : Nat := 2 ^ 32 - 1

/-- The state after the first empty poll. -/
def start (now : Nat) : Idle := ⟨now, 1⟩

/-- The state after one more empty poll. -/
def next (i : Idle) : Idle := { i with count := min (i.count + 1) maxCount }

/-- Whether a poll is due. -/
def permits (i : Idle) (policy : IdlePolicy) (now : Nat) : Bool :=
  policy.delay i.count ≤ now - i.since

/-- The state after an empty poll; an active unit has none. -/
def afterEmpty (previous : Option Idle) (now : Nat) : Option Idle :=
  some (match previous with
    | some i => i.next
    | none => start now)

/-- The state after a poll that returned a number of rows. -/
def afterPoll (previous : Option Idle) (rows now : Nat) : Option Idle :=
  if rows = 0 then afterEmpty previous now else none

/-- Whether a unit in the given state may be polled; an active one always may. -/
def due (state : Option Idle) (policy : IdlePolicy) (now : Nat) : Bool :=
  match state with
  | some i => i.permits policy now
  | none => true

end Idle

end TableTail
