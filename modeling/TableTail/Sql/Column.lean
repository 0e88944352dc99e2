import TableTail.Text.Blank

/-!
# Columns

A column as the live schema shows it. Its declared type is an arbitrary text, of which the tailer
needs only the coarse kind: whether its values can be put in order, and how.
-/

namespace TableTail.Sql

/-- The kind of a declared type. -/
inductive ColumnKind
  | integer
  | decimal
  | text
  | dateTime
  | other
  deriving DecidableEq, Repr

/-- A character with ASCII capitals made small. -/
def lowerAscii (c : Char) : Char := c.toLower

/-- Whether a word stands somewhere in a text. -/
def containsWord (word : List Char) : List Char → Bool
  | [] => word.isEmpty
  | c :: rest => word.isPrefixOf (c :: rest) || containsWord word rest

/-- The kind of a declared type, by the words in its name. Earlier rules win: an interval is not
ordered although its name contains `int`. -/
def ColumnKind.ofDeclared (declared : String) : ColumnKind :=
  let t := (Text.trim declared).toList.map lowerAscii
  let mentions (word : String) : Bool := containsWord word.toList t
  if "timestamp".toList.isPrefixOf t || t == "date".toList || mentions "datetime" then .dateTime
  else if mentions "interval" || mentions "point" then .other
  else if mentions "int" || mentions "serial" then .integer
  else if mentions "numeric" || mentions "decimal" || mentions "real" || mentions "double" ||
    mentions "float" then .decimal
  else if mentions "char" || mentions "text" || mentions "clob" || t == "name".toList then .text
  else .other

/-- A column of a live table: `castType` is the name that a bound parameter is cast to. -/
structure Column where
  name : String
  declared : String
  castType : String
  kind : ColumnKind
  nullable : Bool
  deriving DecidableEq, Repr

/-- The column with a name and a declared type, which is also what parameters are cast to. -/
def Column.ofDeclared (name declared : String) : Column :=
  ⟨name, declared, declared, ColumnKind.ofDeclared declared, true⟩

end TableTail.Sql
