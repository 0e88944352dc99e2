/-!
# Paths

A path is its list of components from the top. A text is split at its slashes: empty components and
single dots say nothing, and two dots go up.
-/

namespace TableTail

/-- A path, by its components. -/
abbrev Path := List String

namespace Path

/-- The longest component, in bytes. -/
def maxComponent : Nat := 255

/-- The characters between slashes. -/
def splitSlash : List Char → List (List Char)
  | [] => [[]]
  | c :: rest =>
    if c = '/' then [] :: splitSlash rest
    else
      match splitSlash rest with
      | [] => [[c]]
      | part :: parts => (c :: part) :: parts

/-- The components that a text names, below those in `above`, which are in reverse order. -/
def resolve : (above : List String) → List String → Path
  | above, [] => above.reverse
  | above, part :: rest =>
    if part = "" ∨ part = "." then resolve above rest
    else if part = ".." then resolve (above.drop 1) rest
    else resolve (part :: above) rest

/-- The path that a text names; relative texts are taken from the top too. -/
def ofText (text : String) : Path :=
  resolve [] ((splitSlash text.toList).map String.ofList)

/-- A directory and a name in it, with one slash between them; an empty directory has none. -/
def join (directory name : String) : String :=
  if directory = "" ∨ directory.toList.getLast? = some '/' then directory ++ name
  else directory ++ "/" ++ name

/-- The components joined by slashes. -/
def text (p : Path) : String := "/".intercalate p

end Path

end TableTail
