import TableTail.Settings.Basic

/-!
# Table descriptors

The static description of a table whose settings have passed their checks: what it is called
outside, which of its columns may be seen, and under which labels.
-/

namespace TableTail

/-- A described table. -/
structure Descriptor where
  name : String
  aliasName : String
  columns : List String
  renames : Named String
  converts : Named String
  filter : Option String
  cursor : CursorSettings
  deriving DecidableEq, Repr

namespace Descriptor

/-- The description in a table's settings; a filter of nothing but blanks is none. -/
def ofSettings (t : TableSettings) : Except TableFault Descriptor :=
  match t.fault? with
  | some fault => .error fault
  | none =>
    .ok ⟨t.name, t.aliasOrName, t.columns, t.rename, t.convert,
      (t.filter.map Text.trim).filter (· ≠ ""), t.cursor⟩

/-- The label under which a column appears in results. -/
def labelOf (d : Descriptor) (column : String) : String :=
  (Named.get? column d.renames).getD column

/-- The configured SQL that is read instead of a column. -/
def convertOf (d : Descriptor) (column : String) : Option String := Named.get? column d.converts

/-- Whether a column may be seen; without a list all may. -/
def isAccessible (d : Descriptor) (column : String) : Bool :=
  d.columns.isEmpty || d.columns.contains column

/-- Whether the table is read identity by identity. -/
def isPartitioned (d : Descriptor) : Bool := d.cursor.identity.isSome

end Descriptor

end TableTail
