import TableTail.Named
import TableTail.Number.Binary64

/-!
# JSON values

JSON documents as values. A number is an integer of 64 bits, signed or unsigned, or a double; the
fields of an object are kept in the order of their names, each name once.
-/

namespace TableTail

namespace Json

/-- A number of a document. -/
inductive Number
  | int (value : Int)
  | real (value : Binary64)
  deriving DecidableEq, Repr

end Json

/-- A JSON document. -/
inductive Json
  | null
  | bool (value : Bool)
  | number (value : Json.Number)
  | string (value : String)
  | array (items : List Json)
  | object (fields : List (String × Json))
  deriving Repr, BEq, Inhabited

namespace Json

/-- The object of a list of fields, of which the last one of a name counts. -/
def ofFields (fields : List (String × Json)) : Json :=
  .object (Named.ofPairs fields)

/-- The field of an object; other documents have none. -/
def get? (name : String) : Json → Option Json
  | .object fields => Named.get? name fields
  | _ => none

/-- An integer as a document. -/
def ofInt (i : Int) : Json := .number (.int i)

end Json

end TableTail
