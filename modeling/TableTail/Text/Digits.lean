/-!
# Decimal digits

Digits as numbers, numbers as digits, and the fixed-width forms that dates and identifiers need.
-/

namespace TableTail.Text

/-- The value of an ASCII decimal digit. -/
def digit? (c : Char) : Option Nat :=
  if '0' ≤ c ∧ c ≤ '9' then some (c.toNat - '0'.toNat) else none

/-- Whether the character is an ASCII decimal digit. -/
def isDigit (c : Char) : Bool := (digit? c).isSome

/-- The value of an ASCII hexadecimal digit of either case. -/
def hexDigit? (c : Char) : Option Nat :=
  if '0' ≤ c ∧ c ≤ '9' then some (c.toNat - '0'.toNat)
  else if 'a' ≤ c ∧ c ≤ 'f' then some (c.toNat - 'a'.toNat + 10)
  else if 'A' ≤ c ∧ c ≤ 'F' then some (c.toNat - 'A'.toNat + 10)
  else none

/-- The digit character of a value below sixteen, in lower case. -/
def hexChar (n : Nat) : Char :=
  if n < 10 then Char.ofNat ('0'.toNat + n) else Char.ofNat ('a'.toNat + (n - 10))

/-- The digit character of a value below sixteen, in upper case. -/
def hexCharUpper (n : Nat) : Char :=
  if n < 10 then Char.ofNat ('0'.toNat + n) else Char.ofNat ('A'.toNat + (n - 10))

/-- The value that a list of digit values denotes, most significant first. -/
def ofDigits (ds : List Nat) : Nat := ds.foldl (fun n d => 10 * n + d) 0

/-- The decimal digits of a number, most significant first; zero has one digit. -/
def toDigits (n : Nat) : List Nat :=
  if n < 10 then [n] else toDigits (n / 10) ++ [n % 10]

/-- The digit character of a value below ten. -/
def digitChar (d : Nat) : Char := Char.ofNat ('0'.toNat + d)

/-- The decimal text of a number. -/
def natText (n : Nat) : String := String.ofList ((toDigits n).map digitChar)

/-- The decimal text of an integer, with a minus sign when negative. -/
def intText (i : Int) : String :=
  match i with
  | .ofNat n => natText n
  | .negSucc n => "-" ++ natText (n + 1)

/-- The decimal text of a number, filled with zeros on the left up to a width. -/
def padded (width n : Nat) : String :=
  let ds := (toDigits n).map digitChar
  String.ofList (List.replicate (width - ds.length) '0' ++ ds)

/-- The text of bytes, two hexadecimal digits for each of them. -/
def hexOfBytes (bytes : List UInt8) : String :=
  String.ofList (bytes.flatMap fun b => [hexChar (b.toNat / 16), hexChar (b.toNat % 16)])

/-- The bytes that a text of hexadecimal digits, two for each of them, stands for. -/
def bytesOfHex? : List Char → Option (List UInt8)
  | [] => some []
  | high :: low :: rest => do
    let x ← hexDigit? high
    let y ← hexDigit? low
    return UInt8.ofNat (16 * x + y) :: (← bytesOfHex? rest)
  | [_] => none

/-- All characters as digits, or nothing when one of them is none. -/
def digits? (s : List Char) : Option (List Nat) := s.mapM digit?

/-- The leading digits as values, and what follows them. -/
def spanDigits : List Char → List Nat × List Char
  | [] => ([], [])
  | c :: rest =>
    match digit? c with
    | some d => let (ds, tail) := spanDigits rest; (d :: ds, tail)
    | none => ([], c :: rest)

end TableTail.Text
