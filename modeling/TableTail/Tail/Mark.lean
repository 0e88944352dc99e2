import TableTail.Calendar.Reading
import TableTail.Number.Conversion
import TableTail.Number.DecimalReading
import TableTail.Sql.Cell
import TableTail.Sql.Column

/-!
# Marks

A mark is a value of an increasing column up to which rows have been read. All marks of a table are
of one kind, which the column's type decides. A mark has a text, in which configuration and
checkpoints keep it, and a cell, as which it is bound.
-/

namespace TableTail

/-- How the values of an increasing column are compared. -/
inductive MarkKind
  | integer
  | decimal
  | text
  | timestamp
  deriving DecidableEq, Repr

/-- The kind of mark for a column, if its values can be put in order. -/
def MarkKind.ofColumn? : Sql.ColumnKind → Option MarkKind
  | .integer => some .integer
  | .decimal => some .decimal
  | .text => some .text
  | .dateTime => some .timestamp
  | .other => none

/-- A value of an increasing column. -/
inductive Mark
  | integer (value : Int64)
  | decimal (value : Decimal)
  | text (value : String)
  | timestamp (value : Timestamp)
  deriving DecidableEq, Repr

namespace Mark

/-- The kind of a mark. -/
def kind : Mark → MarkKind
  | integer _ => .integer
  | decimal _ => .decimal
  | text _ => .text
  | timestamp _ => .timestamp

/-- Where reading starts when nothing else is known. -/
def zero : MarkKind → Mark
  | .integer => integer 0
  | .decimal => decimal Decimal.zero
  | .text => text ""
  | .timestamp => timestamp Timestamp.epoch

instance : Inhabited Mark := ⟨zero .integer⟩

/-- The place of a mark's kind among the kinds. -/
def rank : Mark → Nat
  | integer _ => 0
  | decimal _ => 1
  | text _ => 2
  | timestamp _ => 3

/-- The order of marks: by kind first, decimals by their value whatever their places. -/
def compareMark : Mark → Mark → Ordering
  | integer a, integer b => compare a.toInt b.toInt
  | decimal a, decimal b => a.compareValue b
  | text a, text b => compare a b
  | timestamp a, timestamp b => a.compareMoment b
  | a, b => compare a.rank b.rank

instance : Ord Mark := ⟨compareMark⟩

/-- Whether two marks are at the same place. -/
def same (a b : Mark) : Bool := a.compareMark b == .eq

/-- The mark that comes first; of two at the same place the first one given. -/
def earlier (a b : Mark) : Mark := if a.compareMark b = .gt then b else a

/-- The mark that comes last; of two at the same place the last one given. -/
def later (a b : Mark) : Mark := if a.compareMark b = .gt then a else b

/-- The text of a mark's value. -/
def display : Mark → String
  | integer i => Text.intText i.toInt
  | decimal d => d.text
  | text s => s
  | timestamp t => t.text

/-- Why a text or a document is no mark of the wanted kind. -/
inductive ReadError
  | notInteger (source : String) (cause : Text.NumeralError)
  | notDecimal (source : String) (cause : Decimal.ReadError)
  | notTimestamp (source : String)
  | notScalar (document : Json)
  deriving Repr

/-- The wording of a mark's error. -/
def ReadError.message : ReadError → String
  | .notInteger s cause => "'" ++ s ++ "' is not an integer: " ++ cause.message
  | .notDecimal s cause => "'" ++ s ++ "' is not a decimal: " ++ cause.message
  | .notTimestamp s => "'" ++ s ++ "' is not a date or timestamp"
  | .notScalar document => "unexpected checkpoint value " ++ document.text

/-- The mark that a text denotes. Blanks around it do not count, except in a text mark. -/
def read (kind : MarkKind) (s : String) : Except ReadError Mark :=
  let trimmed := (Text.trim s).toList
  match kind with
  | .integer =>
    match Text.readInt64 trimmed with
    | .ok i => .ok (integer i)
    | .error e => .error (.notInteger s e)
  | .decimal =>
    match Decimal.read trimmed with
    | .ok d => .ok (decimal d)
    | .error e => .error (.notDecimal s e)
  | .text => .ok (text s)
  | .timestamp =>
    match Calendar.read? trimmed with
    | some t => .ok (timestamp t)
    | none => .error (.notTimestamp s)

/-- An integral decimal as a 64-bit integer, if it is one. -/
def integerOfDecimal? (d : Decimal) : Option Int64 :=
  let n := d.signed / (10 ^ d.scale : Nat)
  if -(2 ^ 63) ≤ n ∧ n < 2 ^ 63 then some (Int64.ofInt n) else none

/-- The mark that a cell's text denotes. -/
def ofText? (kind : MarkKind) (c : Sql.Cell) : Option Mark :=
  c.text?.bind fun s => (read kind s).toOption

/-- The mark in a cell of a column of the given kind. Databases answer one column with cells of
several types; where there is no direct conversion the cell's text is read. -/
def ofCell? : MarkKind → Sql.Cell → Option Mark
  | _, .null => none
  | .integer, .integer i => some (integer i)
  | .integer, .decimal d =>
    if d.isIntegral then (integerOfDecimal? d).map integer else ofText? .integer (.decimal d)
  | .integer, .real x =>
    if x.isIntegral then some (integer x.toInt64) else ofText? .integer (.real x)
  | .decimal, .decimal d => some (decimal d)
  | .decimal, .integer i => some (decimal (Decimal.ofInt64 i))
  | .decimal, .real x => (Decimal.ofBinary64? x).map decimal
  | .timestamp, .timestamp t => some (timestamp t)
  | .timestamp, .moment t => some (timestamp t)
  | .timestamp, .date d => some (timestamp (Timestamp.startOfDay d))
  | .timestamp, .integer i => (Timestamp.ofUnix? i.toInt 0).map timestamp
  | kind, c => ofText? kind c

/-- The cell as which a mark is bound. -/
def toCell : Mark → Sql.Cell
  | integer i => .integer i
  | decimal d => .decimal d
  | text s => .text s
  | timestamp t => .timestamp t

/-- The mark in a checkpoint: an integer as a number, all else as text. -/
def toJson : Mark → Json
  | integer i => Json.ofInt i.toInt
  | m => .string m.display

/-- The mark in an entry of a checkpoint. -/
def ofJson (kind : MarkKind) : Json → Except ReadError Mark
  | .string s => read kind s
  | .number n => read kind n.text
  | document => .error (.notScalar document)

end Mark

end TableTail
