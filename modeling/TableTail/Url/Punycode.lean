/-!
# Punycode

The ASCII form of a label of a host name: its ASCII characters, and behind the last hyphen where
the other characters are to be inserted. The insertions are written as differences in a
base-36 notation whose thresholds adapt to the label.
-/

namespace TableTail.Url.Punycode

/-- The character of a digit: letters first, then figures. -/
def digitChar (d : Nat) : Char :=
  if d < 26 then Char.ofNat ('a'.toNat + d) else Char.ofNat ('0'.toNat + (d - 26))

/-- The threshold at a digit position. -/
def threshold (k bias : Nat) : Nat :=
  if k ≤ bias then 1 else if bias + 26 ≤ k then 26 else k - bias

theorem one_le_threshold (k bias : Nat) : 1 ≤ threshold k bias := by
  unfold threshold; split <;> (try split) <;> omega

/-- Halves a difference repeatedly into the range of the bias. -/
def settle (delta k : Nat) : Nat × Nat :=
  if 455 < delta then settle (delta / 35) (k + 36) else (delta, k)

/-- The bias after a difference was written. -/
def adapt (delta count : Nat) (first : Bool) : Nat :=
  let d := if first then delta / 700 else delta / 2
  let (d, k) := settle (d + d / count) 0
  k + 36 * d / (d + 38)

/-- The digits of a difference. -/
def digits (bias k q : Nat) : List Char :=
  let t := threshold k bias
  if q < t then [digitChar q]
  else digitChar (t + (q - t) % (36 - t)) :: digits bias (k + 36) ((q - t) / (36 - t))
termination_by q
decreasing_by
  have h₁ := one_le_threshold k bias
  have h₂ := Nat.div_le_self (q - threshold k bias) (36 - threshold k bias)
  omega

/-- What the encoder keeps between characters. -/
structure State where
  written : List Char
  delta : Nat
  bias : Nat
  handled : Nat

/-- One character of the label while the insertions of `code` are written. -/
def visit (basic code : Nat) (s : State) (c : Char) : State :=
  if c.toNat < code then ⟨s.written, s.delta + 1, s.bias, s.handled⟩
  else if c.toNat = code then
    ⟨s.written ++ digits s.bias 36 s.delta, 0,
      adapt s.delta (s.handled + 1) (s.handled = basic), s.handled + 1⟩
  else s

/-- The insertions of the given code points, in ascending order. -/
def insertions (label : List Char) (basic : Nat) : List Nat → Nat → State → State
  | [], _, s => s
  | code :: rest, next, s =>
    let s : State := ⟨s.written, s.delta + (code - next) * (s.handled + 1), s.bias, s.handled⟩
    let s := label.foldl (visit basic code) s
    insertions label basic rest (code + 1) ⟨s.written, s.delta + 1, s.bias, s.handled⟩

/-- The ASCII form of a label, without the mark in front of it. -/
def encode (label : List Char) : List Char :=
  let basic := label.filter (·.toNat < 0x80)
  let codes := ((label.filter (0x80 ≤ ·.toNat)).map Char.toNat).eraseDups.mergeSort
  let s := insertions label basic.length codes 0x80 ⟨[], 0, 72, basic.length⟩
  basic ++ (if basic.isEmpty then [] else ['-']) ++ s.written

end TableTail.Url.Punycode
