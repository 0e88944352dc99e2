import TableTail.Number.Conversion
import TableTail.Number.Reading
import TableTail.Sql.Cell
import TableTail.Sql.Column
import TableTail.Text.Numeral

/-!
# Stored values

SQLite keeps every value in one of five storage classes, whatever its column was declared as. A
column's declared type gives it an affinity, towards which values are converted when they are stored
and when they are compared with one of its cells.
-/

namespace TableTail

/-- A value in its storage class. -/
inductive Stored
  | null
  | integer (value : Int64)
  | real (value : Binary64)
  | text (value : String)
  | blob (value : List UInt8)
  deriving DecidableEq, Repr

namespace Stored

instance : Inhabited Stored := ⟨null⟩

/-- A real as stored: a NaN becomes NULL. -/
def ofReal (x : Binary64) : Stored := if x.isNaN then null else real x

/-- A text, or NULL. -/
def ofText? : Option String → Stored
  | some s => text s
  | none => null

/-- A decimal as bound: an integer when it is one that fits, a real when it has places. -/
def ofDecimal (d : Decimal) : Stored :=
  if d.isIntegral then
    let n := d.signed / (10 ^ d.scale : Nat)
    if -(2 ^ 63) ≤ n ∧ n < 2 ^ 63 then integer (Int64.ofInt n) else text d.text
  else real (Binary64.ofDecimalValue d)

/-- How a cell is bound to a parameter. -/
def ofCell : Sql.Cell → Stored
  | .null => null
  | .bool b => integer (if b then 1 else 0)
  | .integer i => integer i
  | .real x => ofReal x
  | .decimal d => ofDecimal d
  | .text s => text s
  | .timestamp t => text t.text
  | .moment t => text t.text
  | .bytes bs => blob bs
  | other => ofText? other.text?

/-- How a stored value is answered. -/
def toCell : Stored → Sql.Cell
  | null => .null
  | integer i => .integer i
  | real x => .real x
  | text s => .text s
  | blob bs => .bytes bs

/-- The name of a storage class. -/
def className : Stored → String
  | null => "null"
  | integer _ => "integer"
  | real _ => "real"
  | text _ => "text"
  | blob _ => "blob"

/-- The place of a storage class in the order of values; the two kinds of number share one. -/
def rank : Stored → Nat
  | null => 0
  | integer _ => 1
  | real _ => 1
  | text _ => 2
  | blob _ => 3

/-- The order of values: NULL, numbers by their value, texts by their code points, blobs. -/
def compareStored : Stored → Stored → Ordering
  | integer a, integer b => compare a.toInt b.toInt
  | integer a, real b => Binary64.compareInt a.toInt b
  | real a, integer b => (Binary64.compareInt b.toInt a).swap
  | real a, real b => compare a.orderKey b.orderKey
  | text a, text b => compare a b
  | blob a, blob b => compare a b
  | a, b => compare a.rank b.rank

end Stored

/-- What a column's declared type does to its values. -/
inductive Affinity
  | integer
  | real
  | numeric
  | text
  | blob
  deriving DecidableEq, Repr

namespace Affinity

/-- The affinity of a declared type, by the words in its name; earlier rules win. -/
def ofDeclared (declared : String) : Affinity :=
  let t := declared.toList.map Sql.lowerAscii
  let mentions (word : String) : Bool := Sql.containsWord word.toList t
  if mentions "int" then .integer
  else if mentions "char" || mentions "clob" || mentions "text" then .text
  else if declared = "" || mentions "blob" then .blob
  else if mentions "real" || mentions "floa" || mentions "doub" then .real
  else .numeric

/-- Whether numbers in texts are read as numbers. -/
def isNumeric : Affinity → Bool
  | integer => true
  | real => true
  | numeric => true
  | _ => false

/-- A character that may surround a number. -/
def isSpace (c : Char) : Bool := c = ' ' || (0x09 ≤ c.toNat && c.toNat ≤ 0x0D)

/-- A text without the characters that may surround a number. -/
def core (s : String) : List Char :=
  ((s.toList.dropWhile isSpace).reverse.dropWhile isSpace).reverse

/-- A real as an integer when it is one of the 64-bit range, its ends left out. -/
def integral (x : Binary64) : Stored :=
  let i := x.toInt64
  if x.isIntegral ∧ -(2 ^ 63) < i.toInt ∧ i.toInt < 2 ^ 63 - 1 then .integer i else .real x

/-- A text as a number, when it is nothing but one. -/
def numberOf (s : String) : Stored :=
  let chars := core s
  match Text.readInt64 chars with
  | .ok i => .integer i
  | .error _ =>
    if chars.any fun c => !(Text.isDigit c || c = '.' || c = 'e' || c = 'E' || c = '+' || c = '-')
    then .text s
    else
      match Binary64.read? chars with
      | some x => integral x
      | none => .text s

/-- The text of a real in a text column: fifteen digits, and always a place. -/
def realText (x : Binary64) : String :=
  let sign := if x.negative then "-" else ""
  if x.isInfinite then sign ++ "Inf"
  else if x.magnitude = 0 then sign ++ "0.0"
  else
    let point := Binary64.decimalPoint x.magnitude (2 ^ 1074)
    let shift := point - 15
    let n := Binary64.nearestEven (x.magnitude * 10 ^ (-shift).toNat) (2 ^ 1074 * 10 ^ shift.toNat)
    let ds := Text.toDigits n
    let d : Decimals := ⟨Binary64.dropTrailingZeros ds, point + ((ds.length : Int) - 15)⟩
    if -4 < d.point ∧ d.point ≤ 15 then sign ++ Binary64.positional d ".0"
    else
      let mantissa := Binary64.positional ⟨d.digits, 1⟩ ".0"
      let e := d.point - 1
      sign ++ mantissa ++ "e" ++ (if e < 0 then "-" else "+") ++ Text.padded 2 e.natAbs

/-- A value as a column of an affinity keeps it. -/
def store : Affinity → Stored → Stored
  | text, .integer i => .text (Text.intText i.toInt)
  | text, .real x => .text (realText x)
  | integer, .real x => integral x
  | numeric, .real x => integral x
  | integer, .text s => numberOf s
  | numeric, .text s => numberOf s
  | real, .integer i => .real (Binary64.ofInt i.toInt)
  | real, .text s =>
    match numberOf s with
    | .integer i => .real (Binary64.ofInt i.toInt)
    | v => v
  | _, v => v

/-- A value as it is compared with a cell of an affinity. -/
def adapt : Affinity → Stored → Stored
  | text, .integer i => .text (Text.intText i.toInt)
  | text, .real x => .text (realText x)
  | a, .text s => if a.isNumeric then numberOf s else .text s
  | _, v => v

end Affinity

end TableTail
