import TableTail.Json.Value

/-!
# TOML tables under construction

A document is built line by line. A table remembers how it came to be, because that decides whether
a later line may extend it: a table with a header of its own is closed to dotted keys and to a
second header, a table made by dotted keys is closed to headers.
-/

namespace TableTail.Toml

/-- How a table came to be. -/
inductive Origin
  | header
  | above
  | dotted
  deriving DecidableEq, Repr

/-- What stands under a key. -/
inductive Item
  | value (v : Json)
  | table (origin : Origin) (entries : List (String × Item))
  | tables (before : List (List (String × Item))) (last : List (String × Item))

/-- The entries of a table. -/
abbrev Entries := List (String × Item)

/-- The entries with what stands under a key changed; a key that is missing counts as `none`. -/
def alter (key : String) (change : Option Item → Option Item) : Entries → Option Entries
  | [] => (change none).map fun item => [(key, item)]
  | (k, item) :: rest =>
    if k = key then (change (some item)).map fun item => (k, item) :: rest
    else (alter key change rest).map ((k, item) :: ·)

/-- Goes down a path of keys from a table and changes the table at its end. Missing tables are made
with the given origin; dotted keys do not enter a table that has a header. -/
def descend (made : Origin) (change : Origin → Entries → Option Entries) :
    List String → Origin → Entries → Option Entries
  | [], origin, entries => change origin entries
  | key :: path, _, entries =>
    alter key (fun
      | none => (descend made change path made []).map (.table made)
      | some (.value _) => none
      | some (.table origin inner) =>
        if made = .dotted ∧ origin = .header then none
        else (descend made change path origin inner).map (.table origin)
      | some (.tables before last) =>
        (descend made change path .header last).map (.tables before)) entries

/-- Opens the table of a header. -/
def openTable (path : List String) (key : String) (root : Entries) : Option Entries :=
  descend .above (fun _ entries =>
    alter key (fun
      | none => some (.table .header [])
      | some (.table .above inner) => some (.table .header inner)
      | some _ => none) entries) path .header root

/-- Opens one more table of an array of tables. -/
def openElement (path : List String) (key : String) (root : Entries) : Option Entries :=
  descend .above (fun _ entries =>
    alter key (fun
      | none => some (.tables [] [])
      | some (.tables before last) => some (.tables (before ++ [last]) [])
      | some _ => none) entries) path .header root

/-- Sets a key that must be new, in the table that dotted keys lead to. -/
def setKey (path : List String) (key : String) (v : Json) (table : Entries) : Option Entries :=
  descend .dotted (fun origin entries =>
    if !path.isEmpty ∧ origin ≠ .dotted then none
    else alter key (fun
      | none => some (.value v)
      | some _ => none) entries) path .header table

/-- Sets a key below the table that the last header opened. -/
def setBelow (header path : List String) (key : String) (v : Json) (root : Entries) :
    Option Entries :=
  descend .above (fun _ entries => setKey path key v entries) header .header root

mutual

/-- The document of an item. -/
def Item.toJson : Item → Json
  | .value v => v
  | .table _ entries => Json.ofFields (entriesToJson entries)
  | .tables before last =>
    .array (tablesToJson before ++ [Json.ofFields (entriesToJson last)])

/-- The documents of entries. -/
def entriesToJson : List (String × Item) → List (String × Json)
  | [] => []
  | (k, item) :: rest => (k, item.toJson) :: entriesToJson rest

/-- The documents of the tables of an array. -/
def tablesToJson : List (List (String × Item)) → List Json
  | [] => []
  | t :: rest => Json.ofFields (entriesToJson t) :: tablesToJson rest

end

end TableTail.Toml
