import TableTail.Number.Power
import TableTail.Text.Digits

/-!
# Integers in text

Reading a whole text as a bounded integer. The first fault from the left decides the error: a
character that is no digit where it stands, or the digit with which the value leaves the range.
-/

namespace TableTail.Text

/-- Why a text is not an integer of the wanted range. -/
inductive NumeralError
  | empty
  | invalidDigit
  | tooLarge
  | tooSmall
  deriving DecidableEq, Repr

/-- The wording of an integer error. -/
def NumeralError.message : NumeralError → String
  | .empty => "cannot parse integer from empty string"
  | .invalidDigit => "invalid digit found in string"
  | .tooLarge => "number too large to fit in target type"
  | .tooSmall => "number too small to fit in target type"

/-- The digits' value as long as it stays within `bound`, and `above` as soon as it does not. -/
def boundedNat (bound : Nat) (above : NumeralError) : Nat → List Char → Except NumeralError Nat
  | n, [] => .ok n
  | n, c :: rest =>
    match digit? c with
    | none => .error .invalidDigit
    | some d => if bound < 10 * n + d then .error above else boundedNat bound above (10 * n + d) rest

/-- The integer that the text denotes: an optional sign and at least one digit. -/
def readInt64 (s : List Char) : Except NumeralError Int64 :=
  match s with
  | [] => .error .empty
  | ['+'] => .error .invalidDigit
  | ['-'] => .error .invalidDigit
  | '+' :: ds => (boundedNat (2 ^ 63 - 1) .tooLarge 0 ds).map fun n => Int64.ofInt n
  | '-' :: ds => (boundedNat (2 ^ 63) .tooSmall 0 ds).map fun n => Int64.ofInt (-(n : Int))
  | ds => (boundedNat (2 ^ 63 - 1) .tooLarge 0 ds).map fun n => Int64.ofInt n

/-- The natural number below `2 ^ 32` that the text denotes; a plus sign may precede it. -/
def readNat32 (s : List Char) : Except NumeralError Nat :=
  match s with
  | [] => .error .empty
  | ['+'] => .error .invalidDigit
  | '+' :: ds => boundedNat (2 ^ 32 - 1) .tooLarge 0 ds
  | ds => boundedNat (2 ^ 32 - 1) .tooLarge 0 ds

end TableTail.Text
