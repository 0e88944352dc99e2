import TableTail.Number.Binary64
import TableTail.Text.Digits

/-!
# Doubles in text

Reading a whole text as the double nearest to the decimal number in it.
-/

namespace TableTail.Binary64

/-- The double nearest to `± n * 10 ^ e`. Exponents far outside the range of doubles are answered
without forming the power. -/
def ofDecimal (negative : Bool) (n : Nat) (e : Int) : Binary64 :=
  if n = 0 then ofParts negative 0 0
  else
    let size := (Text.toDigits n).length
    if 400 < e + size then infinity negative
    else if e + size < -400 then ofParts negative 0 0
    else ofRatio negative (n * 10 ^ e.toNat) (10 ^ (-e).toNat)

/-- The exponent part of a number, at the end of the text. -/
def readExponent : List Char → Option Int
  | [] => some 0
  | c :: rest =>
    if c = 'e' ∨ c = 'E' then
      let (neg, ds) := match rest with
        | '-' :: ds => (true, ds)
        | '+' :: ds => (false, ds)
        | ds => (false, ds)
      match ds, Text.digits? ds with
      | _ :: _, some ds => some (if neg then -(Text.ofDigits ds : Int) else Text.ofDigits ds)
      | _, _ => none
    else none

/-- The number after its sign: an infinity, a NaN, or digits with an optional point among them
and an optional exponent behind them. -/
def readUnsigned (negative : Bool) (s : List Char) : Option Binary64 :=
  let word := String.ofList (s.map Char.toLower)
  if word = "inf" ∨ word = "infinity" then some (infinity negative)
  else if word = "nan" then some nan
  else
    let (whole, rest) := Text.spanDigits s
    let (places, rest) := match rest with
      | '.' :: rest => Text.spanDigits rest
      | rest => ([], rest)
    if whole.isEmpty ∧ places.isEmpty then none
    else (readExponent rest).map fun e =>
      ofDecimal negative (Text.ofDigits (whole ++ places)) (e - places.length)

/-- The double that a text denotes. -/
def read? (s : List Char) : Option Binary64 :=
  match s with
  | '-' :: rest => readUnsigned true rest
  | '+' :: rest => readUnsigned false rest
  | rest => readUnsigned false rest

end TableTail.Binary64
