import TableTail.Named
import TableTail.Sql.Identifier
import TableTail.Tail.Idle

/-!
# Settings of a table

What a configuration says about one table, and the checks that need no database. Every name that
reaches a statement or a path has to be a plain identifier; output labels may be any text, as long
as no two columns get the same one.
-/

namespace TableTail

/-- The columns that drive a table's cursor, and where it starts. -/
structure CursorSettings where
  increment : String
  identity : Option String
  defaultStart : Option String
  starts : Named String
  includes : List String
  excludes : List String
  discover : Bool
  deriving DecidableEq, Repr

/-- A table as configured. -/
structure TableSettings where
  name : String
  aliasName : Option String
  columns : List String
  rename : Named String
  convert : Named String
  filter : Option String
  idleInterval : Option Nat
  idleMax : Option Nat
  cursor : CursorSettings
  deriving DecidableEq, Repr

/-- What is wrong with a table's settings. -/
inductive TableFault
  | identifier (fault : Sql.IdentifierFault)
  | sameColumn
  | blankAlias
  | blankRename (column : String)
  | repeatedTarget (target : String)
  | collidingTarget (target : String)
  | convertedCursor (column : String)
  | identityNeeded
  deriving DecidableEq, Repr

/-- The wording of a table's fault. -/
def TableFault.message : TableFault → String
  | .identifier fault => fault.message
  | .sameColumn => "identity and increment must be different columns"
  | .blankAlias => "alias cannot be empty"
  | .blankRename column => "rename of '" ++ column ++ "' cannot be empty"
  | .repeatedTarget target =>
    "rename target '" ++ target ++ "' is used for more than one column"
  | .collidingTarget target =>
    "rename target '" ++ target ++ "' collides with an existing column"
  | .convertedCursor column =>
    "cursor column '" ++ column ++ "' cannot have a read-time conversion"
  | .identityNeeded => "starts, includes and excludes require an identity column"

namespace TableSettings

/-- The name under which records are delivered: the alias, or else the table's own name. -/
def aliasOrName (t : TableSettings) : String := t.aliasName.getD t.name

/-- The increment column, and the identity column behind it. -/
def cursorColumns (t : TableSettings) : List String := t.cursor.increment :: t.cursor.identity.toList

/-- The pace of idle polls, with the given one where the table has none of its own. -/
def idlePolicy (t : TableSettings) (interval max : Nat) : IdlePolicy :=
  ⟨t.idleInterval.getD interval, t.idleMax.getD max⟩

/-- The first fault that the names of a list have as identifiers. -/
def identifierFault (names : List String) : Option TableFault :=
  (names.findSome? Sql.identifierFault?).map .identifier

/-- The first rename, in the order of the columns, without a target or with one used before. -/
def renameFault : (used : List String) → Named String → Option TableFault
  | _, [] => none
  | used, (column, target) :: rest =>
    if Text.isBlankText target then some (.blankRename column)
    else if used.contains target then some (.repeatedTarget target)
    else renameFault (target :: used) rest

/-- Whether a target is the name of a column that keeps its own name. -/
def collides (t : TableSettings) (target : String) : Bool :=
  !Named.has target t.rename && (t.columns.contains target || t.cursorColumns.contains target)

/-- The first fault of a table's settings. -/
def fault? (t : TableSettings) : Option TableFault :=
  identifierFault [t.name, t.cursor.increment] <|>
  (identifierFault t.cursor.identity.toList) <|>
  (if t.cursor.identity = some t.cursor.increment then some .sameColumn else none) <|>
  identifierFault (t.columns ++ Named.names t.rename ++ Named.names t.convert) <|>
  (if Text.isBlankText t.aliasOrName then some .blankAlias else none) <|>
  renameFault [] t.rename <|>
  ((Named.sortedNames (Named.values t.rename)).find? t.collides).map .collidingTarget <|>
  (t.cursorColumns.find? fun c => Named.has c t.convert).map .convertedCursor <|>
  (if t.cursor.identity.isNone &&
      !(t.cursor.starts.isEmpty && t.cursor.includes.isEmpty && t.cursor.excludes.isEmpty) then
    some .identityNeeded
  else none)

end TableSettings

end TableTail
