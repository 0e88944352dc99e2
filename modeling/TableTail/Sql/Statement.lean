import TableTail.Sql.Cell
import TableTail.Sql.Identifier

/-!
# Statements

The shapes of statement that the tailer asks a database, as syntax and as text. Keeping the syntax
makes it possible to say what a statement selects, and which of its parts come from a
configuration as they are.
-/

namespace TableTail.Sql

/-- The layout in which instants are compared where the database keeps them as arbitrary text. -/
def instantLayout : String := "%Y-%m-%d %H:%M:%f"

/-- An expression of a statement. -/
inductive Term
  /-- The column with a name. -/
  | column (name : String)
  /-- SQL from the configuration. -/
  | configured (sql : String)
  /-- The parameter with an index, counted from one. -/
  | parameter (index : Nat)
  /-- The parameter with an index, bound as text and cast to a type. -/
  | castParameter (index : Nat) (type : String)
  /-- The instant that a value denotes, in `instantLayout`. -/
  | instant (value : Term)
  /-- The instant a number of seconds after the start of Unix time, in `instantLayout`. -/
  | unixInstant (seconds : Term)
  /-- One of two values, by whether a column's cell is stored as an integer. -/
  | byStorage (column : String) (ifInteger otherwise : Term)
  /-- The least value of a group. -/
  | minimum (value : Term)
  deriving DecidableEq, Repr

/-- The text of an expression. -/
def Term.text : Term → String
  | column name => quoted name
  | configured sql => sql
  | parameter i => "?" ++ Text.natText i
  | castParameter i type => "CAST($" ++ Text.natText i ++ "::text AS " ++ type ++ ")"
  | instant value => "strftime('" ++ instantLayout ++ "', " ++ value.text ++ ")"
  | unixInstant seconds =>
    "strftime('" ++ instantLayout ++ "', " ++ seconds.text ++ ", 'unixepoch')"
  | byStorage name a b =>
    "CASE typeof(" ++ quoted name ++ ") WHEN 'integer' THEN " ++ a.text ++ " ELSE " ++ b.text ++
      " END"
  | minimum value => "MIN(" ++ value.text ++ ")"

/-- How two values are compared. -/
inductive Comparison
  | equal
  | above
  | atLeast
  deriving DecidableEq, Repr

/-- The operator of a comparison. -/
def Comparison.text : Comparison → String
  | equal => "="
  | above => ">"
  | atLeast => ">="

/-- A condition on the rows that a statement selects. -/
inductive Condition
  | compare (left : Term) (comparison : Comparison) (right : Term)
  | isNotNull (value : Term)
  | among (value : Term) (list : List Term)
  | notAmong (value : Term) (list : List Term)
  /-- SQL from the configuration, set in parentheses. -/
  | configured (sql : String)
  deriving Repr

/-- Terms separated by commas. -/
def listText (terms : List Term) : String := ", ".intercalate (terms.map Term.text)

/-- The text of a condition. -/
def Condition.text : Condition → String
  | compare left comparison right =>
    left.text ++ " " ++ comparison.text ++ " " ++ right.text
  | isNotNull value => value.text ++ " IS NOT NULL"
  | among value list => value.text ++ " IN (" ++ listText list ++ ")"
  | notAmong value list => value.text ++ " NOT IN (" ++ listText list ++ ")"
  | configured sql => "(" ++ sql ++ ")"

/-- How the selected rows are arranged: in ascending order and cut off, or one row for each group. -/
inductive Arrangement
  | ordered (key : Term) (limit : Nat)
  | grouped (key : Term)
  deriving Repr

/-- The end of a statement. -/
def Arrangement.text : Arrangement → String
  | ordered key limit => " ORDER BY " ++ key.text ++ " ASC LIMIT " ++ Text.natText limit
  | grouped key => " GROUP BY " ++ key.text

/-- An expression that a statement selects, and its label in the result. -/
structure Item where
  value : Term
  label : String
  deriving DecidableEq, Repr

/-- The text of a selected expression. -/
def Item.text (item : Item) : String := item.value.text ++ " AS " ++ quoted item.label

/-- Selected expressions separated by commas. -/
def itemsText (items : List Item) : String := ", ".intercalate (items.map Item.text)

/-- A statement over one table; the reference to the table is given as it is written. -/
structure Select where
  items : List Item
  table : String
  conditions : List Condition
  arrangement : Arrangement
  deriving Repr

/-- The text of a statement. -/
def Select.text (s : Select) : String :=
  "SELECT " ++ itemsText s.items ++ " FROM " ++ s.table ++ " WHERE " ++
    " AND ".intercalate (s.conditions.map Condition.text) ++ s.arrangement.text

/-- A statement with the cells bound to its parameters. -/
structure Query where
  select : Select
  parameters : List Cell
  deriving Repr

end TableTail.Sql
