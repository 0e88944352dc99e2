import TableTail.Number.Decimal
import TableTail.Text.Numeral

/-!
# Decimals in text

Reading a whole text as a decimal: digits with an optional point and `_` between them, or such a
number with a power of ten behind `e`. A value with more places than a decimal holds is rounded at
the last place that fits, a five going up, and what follows that place is not looked at.
-/

namespace TableTail.Decimal

/-- Why a text is not a decimal. -/
inductive ReadError
  | empty
  | noDigits
  | leadingSeparator
  | secondPoint
  | unknownCharacter
  | tooManyDigits
  | overflowByRounding
  | notANumber
  | scaleTooLarge (scale : Nat)
  | tooLarge
  deriving DecidableEq, Repr

/-- The wording of a decimal error. -/
def ReadError.message : ReadError → String
  | .empty => "Invalid decimal: empty"
  | .noDigits => "Invalid decimal: no digits found"
  | .leadingSeparator => "Invalid decimal: must start lead with a number"
  | .secondPoint => "Invalid decimal: two decimal points"
  | .unknownCharacter => "Invalid decimal: unknown character"
  | .tooManyDigits => "Invalid decimal: overflow from too many digits"
  | .overflowByRounding => "Invalid decimal: overflow from mantissa after rounding"
  | .notANumber => "Failed to parse"
  | .scaleTooLarge scale =>
    "Scale exceeds the maximum precision allowed: " ++ Text.natText scale ++ " > 28"
  | .tooLarge => "Number exceeds maximum value that can be represented."

/-- The fault of a character that cannot stand where it does. -/
def misplaced (c : Char) : ReadError :=
  if c = '.' then .secondPoint else if c = '_' then .leadingSeparator else .unknownCharacter

/-- The number with the parts read. -/
def finish (negative : Bool) (mantissa scale : Nat) : Except ReadError Decimal :=
  match ofParts? negative mantissa scale with
  | some d => .ok d
  | none => .error .tooLarge

/-- Ends a number at the last place that fits: `next` is the character after it. -/
def roundAt (negative point : Bool) (mantissa scale : Nat) (next : Char) :
    Except ReadError Decimal :=
  match Text.digit? next with
  | some d =>
    if d < 5 then finish negative mantissa scale
    else if mantissa + 1 < 2 ^ 96 then finish negative (mantissa + 1) scale
    else if scale = 0 then .error .overflowByRounding
    else finish negative ((mantissa + 5) / 10) (scale - 1)
  | none =>
    if next = '_' ∨ (next = '.' ∧ point) then finish negative mantissa scale
    else .error (misplaced next)

/-- Reads on after `mantissa` and `scale`: `point` when a point was seen, `has` when a digit was. -/
def readRest (negative : Bool) :
    (point has : Bool) → (mantissa scale : Nat) → List Char → Except ReadError Decimal
  | _, has, m, s, [] => if has then finish negative m s else .error .noDigits
  | point, has, m, s, c :: rest =>
    if point ∧ 28 ≤ s then roundAt negative point m s c
    else
      match Text.digit? c with
      | some d =>
        if 10 * m + d < 2 ^ 96 then
          readRest negative point true (10 * m + d) (if point then s + 1 else s) rest
        else if point then roundAt negative point m s c
        else .error .tooManyDigits
      | none =>
        if c = '.' ∧ !point then readRest negative true has m s rest
        else if c = '_' ∧ has then readRest negative point has m s rest
        else .error (misplaced c)

/-- The decimal that a text without an exponent denotes. -/
def readPlain (s : List Char) : Except ReadError Decimal :=
  match s with
  | [] => .error .empty
  | '-' :: rest => readRest true false false 0 0 rest
  | '+' :: rest => readRest false false false 0 0 rest
  | rest => readRest false false false 0 0 rest

/-- The number with its places cut to `scale`, rounding a half away from zero. -/
def cutTo (scale : Nat) (d : Decimal) : Nat :=
  if d.scale ≤ scale then d.mantissa * 10 ^ (scale - d.scale)
  else
    let p := 10 ^ (d.scale - scale)
    (2 * d.mantissa + p) / (2 * p)

/-- The number times ten to the power of `-e`. -/
def shiftDown (d : Decimal) (e : Nat) : Except ReadError Decimal :=
  if 28 < e then .error (.scaleTooLarge e)
  else if d.scale + e ≤ 28 then finish d.negative d.mantissa (d.scale + e)
  else finish d.negative (cutTo (28 - e) d) 28

/-- The number times ten to the power of `e`. -/
def shiftUp (d : Decimal) (e : Nat) : Except ReadError Decimal :=
  if e ≤ d.scale then finish d.negative d.mantissa (d.scale - e)
  else if 28 < e then .error (.scaleTooLarge e)
  else finish d.negative (d.mantissa * 10 ^ (e - d.scale)) 0

/-- The decimal that a number with an exponent denotes. -/
def readScientific (s : List Char) : Except ReadError Decimal :=
  match s.dropWhile fun c => c ≠ 'e' ∧ c ≠ 'E' with
  | [] => .error .notANumber
  | _ :: exponent => do
    let base ← readPlain (s.takeWhile fun c => c ≠ 'e' ∧ c ≠ 'E')
    match exponent with
    | '-' :: digits =>
      match Text.readNat32 digits with
      | .ok e => shiftDown base e
      | .error _ => .error .notANumber
    | digits =>
      match Text.readNat32 digits with
      | .ok e => shiftUp base e
      | .error _ => .error .notANumber

/-- The decimal that a text denotes. What is no plain number is read as a scientific one, whose
error is the one reported. -/
def read (s : List Char) : Except ReadError Decimal :=
  match readPlain s with
  | .ok d => .ok d
  | .error _ => readScientific s

end TableTail.Decimal
