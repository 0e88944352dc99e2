import TableTail.Calendar.Timestamp
import TableTail.Json.Printing
import TableTail.Number.Decimal
import TableTail.Number.Shortest
import TableTail.Text.Base64

/-!
# Cells

The values that result sets hold and parameters bind: SQL's, with the types that the databases
report. A cell has a text, which also names a partition, and a JSON form for records.
-/

namespace TableTail.Sql

/-- A universally unique identifier: thirty-two hexadecimal digits as values below sixteen. -/
structure Uuid where
  digits : List Nat
  deriving DecidableEq, Repr

/-- The lower-case digits in groups of 8, 4, 4, 4 and 12, joined by hyphens. -/
def Uuid.text (u : Uuid) : String :=
  let cs := u.digits.map Text.hexChar
  String.ofList (cs.take 8 ++ '-' :: (cs.drop 8).take 4 ++ '-' :: (cs.drop 12).take 4 ++
    '-' :: (cs.drop 16).take 4 ++ '-' :: cs.drop 20)

/-- A value of a result set or of a parameter. -/
inductive Cell
  | null
  | bool (value : Bool)
  | integer (value : Int64)
  | real (value : Binary64)
  | decimal (value : Decimal)
  | text (value : String)
  | timestamp (value : Timestamp)
  | moment (value : Timestamp)
  | date (value : Date)
  | json (value : Json)
  | uuid (value : Uuid)
  | bytes (value : List UInt8)
  deriving BEq, Repr

namespace Cell

instance : Inhabited Cell := ⟨null⟩

/-- Whether the cell is NULL. -/
def isNull : Cell → Bool
  | null => true
  | _ => false

/-- The text of a cell; NULL has none. -/
def text? : Cell → Option String
  | null => none
  | bool b => some (if b then "true" else "false")
  | integer i => some (Text.intText i.toInt)
  | real x => some x.plainText
  | decimal d => some d.text
  | text s => some s
  | timestamp t => some t.text
  | moment t => some t.universalText
  | date d => some d.text
  | json v => some v.text
  | uuid u => some u.text
  | bytes bs => some (Text.base64 bs)

/-- A cell in a record's body: integers and finite reals as numbers, documents as they are, bytes
as an object that says what they are, all else as text. -/
def toJson : Cell → Json
  | null => .null
  | bool b => .bool b
  | integer i => Json.ofInt i.toInt
  | real x => if x.isFinite then .number (.real x) else .string x.plainText
  | json v => v
  | bytes bs => .object [("_type", .string "blob"), ("data", .string (Text.base64 bs))]
  | other =>
    match other.text? with
    | some s => .string s
    | none => .null

end Cell

end TableTail.Sql
