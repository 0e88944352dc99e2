import TableTail.Files.Path
import TableTail.Text.Blank

/-!
# Where checkpoints are kept

Each table has a file of its own in a directory for its catalog. Names become single path
components, so that no name leads out of the root.
-/

namespace TableTail

/-- The file of a table's checkpoint. -/
structure Location where
  root : String
  directory : String
  file : String
  deriving DecidableEq, Repr

namespace Location

/-- A character that may stand in a component; others become underscores. -/
def cleanChar (c : Char) : Char :=
  if c = '/' ∨ c = '\\' ∨ Text.isControl c then '_' else c

/-- A name as one component of a path. Nothing, one dot and two dots get an underscore in front,
because they are no names of files. -/
def component (name : String) : String :=
  let cleaned := String.ofList (name.toList.map cleanChar)
  if cleaned = "" ∨ cleaned = "." ∨ cleaned = ".." then "_" ++ cleaned else cleaned

/-- The file of a table in a catalog, below a root. -/
def of (root catalog table : String) : Location :=
  ⟨root, component catalog, component table ++ ".pos"⟩

/-- The directory that holds the file. -/
def directoryText (l : Location) : String := Path.join l.root l.directory

/-- The file's path as text. -/
def text (l : Location) : String := Path.join l.directoryText l.file

end Location

end TableTail
