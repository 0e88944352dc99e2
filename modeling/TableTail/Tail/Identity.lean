import TableTail.Tail.Reader

/-!
# Identities

The text of an identity names its partition; the cell that selects its rows has the type of the
identity column. A database answers such a cell itself, a configuration or a checkpoint only the
text.
-/

namespace TableTail

/-- The cell of an identity that is known by its text. -/
def identityCell (c : Sql.Column) (identity : String) : Sql.Cell :=
  let trimmed := (Text.trim identity).toList
  match c.kind with
  | .integer =>
    match Text.readInt64 trimmed with
    | .ok i => .integer i
    | .error _ => .text identity
  | .decimal =>
    match Decimal.readPlain trimmed with
    | .ok d => .decimal d
    | .error _ => .text identity
  | _ => .text identity

namespace Descriptor

/-- The query for the least increments of the identities that the configuration admits. -/
def minimumQuery (d : Descriptor) (s : Selection) (identity : Sql.Column) : Option Sql.Query :=
  s.minimums (d.cursor.includes.map (identityCell identity))
    (d.cursor.excludes.map (identityCell identity))

end Descriptor

/-- The identity in a row of a minimum query: its text and its cell. -/
def identityOf? (row : Sql.Row) : Option (String × Sql.Cell) :=
  (row.get? Selection.identityLabel).bind fun c => c.text?.map fun identity => (identity, c)

end TableTail
