import TableTail.Files.Error
import TableTail.Files.Path
import TableTail.Text.Digits

/-!
# File trees

Files and directories held in memory, found by their paths. An operation fails for the reason that
a file system would give: it looks at the components from the top and stops at the first one that
is missing, is no directory, or has too long a name.
-/

namespace TableTail

/-- What is at a path. -/
inductive FileEntry
  | file (bytes : List UInt8)
  | directory
  deriving DecidableEq, Repr

/-- Files and directories below a top directory, which has no entry of its own. -/
structure FileTree where
  entries : List (Path × FileEntry)
  deriving Repr

namespace FileTree

/-- Nothing but the top directory. -/
def empty : FileTree := ⟨[]⟩

/-- What is at a path. -/
def get? (t : FileTree) (p : Path) : Option FileEntry :=
  if p = [] then some .directory else (t.entries.find? fun e => e.1 = p).map (·.2)

/-- The tree without what is at a path. -/
def erase (t : FileTree) (p : Path) : FileTree := ⟨t.entries.filter fun e => e.1 ≠ p⟩

/-- The tree with something put at a path. -/
def put (t : FileTree) (p : Path) (e : FileEntry) : FileTree :=
  ⟨(p, e) :: (t.erase p).entries⟩

/-- The tree without a path and all that is below it. -/
def prune (t : FileTree) (p : Path) : FileTree :=
  ⟨t.entries.filter fun e => !p.isPrefixOf e.1⟩

/-- What is found at a path below `above`, nothing if only its last component is missing. -/
def findBelow (t : FileTree) (above : Path) : Path → Except FileError (Option FileEntry)
  | [] => .ok (t.get? above)
  | name :: rest =>
    if Path.maxComponent < name.utf8ByteSize then .error .nameTooLong
    else
      match t.get? (above ++ [name]), rest with
      | found, [] => .ok found
      | some .directory, _ :: _ => findBelow t (above ++ [name]) rest
      | some (.file _), _ :: _ => .error .notADirectory
      | none, _ :: _ => .error .notFound

/-- What is found at a path. -/
def find (t : FileTree) (p : Path) : Except FileError (Option FileEntry) := t.findBelow [] p

/-- The text in a list of bytes, when they are the UTF-8 form of one. -/
def textOfBytes (bytes : List UInt8) : Except FileError String :=
  match String.fromUTF8? ⟨bytes.toArray⟩ with
  | some s => .ok s
  | none => .error .notText

/-- The UTF-8 form of a text. -/
def bytesOfText (s : String) : List UInt8 := s.toUTF8.toList

/-- The text of a file. -/
def readText (t : FileTree) (p : Path) : Except FileError String :=
  match t.find p with
  | .error e => .error e
  | .ok none => .error .notFound
  | .ok (some .directory) => .error .isADirectory
  | .ok (some (.file bytes)) => textOfBytes bytes

/-- Makes the directories of a path below `above` that are missing. Those made before a failure
stay. -/
def makeDirectoriesBelow (t : FileTree) (above : Path) : Path → Except FileError Unit × FileTree
  | [] => (.ok (), t)
  | name :: rest =>
    if Path.maxComponent < name.utf8ByteSize then (.error .nameTooLong, t)
    else
      match t.get? (above ++ [name]) with
      | some .directory => makeDirectoriesBelow t (above ++ [name]) rest
      | some (.file _) =>
        (.error (if rest = [] then .alreadyExists else .notADirectory), t)
      | none => makeDirectoriesBelow (t.put (above ++ [name]) .directory) (above ++ [name]) rest

/-- Makes the directories of a path that are missing. -/
def makeDirectories (t : FileTree) (p : Path) : Except FileError Unit × FileTree :=
  t.makeDirectoriesBelow [] p

/-- A name in a directory that nothing has: the first free one of a numbered series. -/
def freshName (t : FileTree) (directory : Path) : Nat → Nat → String
  | 0, n => ".tmp" ++ Text.natText n
  | tries + 1, n =>
    if (t.get? (directory ++ [".tmp" ++ Text.natText n])).isNone then ".tmp" ++ Text.natText n
    else freshName t directory tries (n + 1)

/-- Makes an empty file with a fresh name in a directory, and answers its path. -/
def createTemporary (t : FileTree) (directory : Path) : Except FileError Path × FileTree :=
  let path := directory ++ [t.freshName directory t.entries.length 0]
  match t.find path with
  | .error e => (.error e, t)
  | .ok _ => (.ok path, t.put path (.file []))

/-- Appends bytes to a file and answers their number. -/
def append (t : FileTree) (p : Path) (bytes : List UInt8) : Except FileError Nat × FileTree :=
  match t.find p with
  | .error e => (.error e, t)
  | .ok none => (.error .notFound, t)
  | .ok (some .directory) => (.error .isADirectory, t)
  | .ok (some (.file before)) => (.ok bytes.length, t.put p (.file (before ++ bytes)))

/-- Gives a file another path, in place of a file that has it. -/
def rename (t : FileTree) (source target : Path) : Except FileError Unit × FileTree :=
  match t.find source, t.find target with
  | .error e, _ => (.error e, t)
  | _, .error e => (.error e, t)
  | .ok none, _ => (.error .notFound, t)
  | .ok (some .directory), _ => (.error .notADirectory, t)
  | .ok (some (.file _)), .ok (some .directory) => (.error .isADirectory, t)
  | .ok (some (.file bytes)), _ => (.ok (), (t.erase source).put target (.file bytes))

/-- Puts something at a path, with the directories above it, unless something is in the way. -/
def install (t : FileTree) (p : Path) (e : FileEntry) : FileTree :=
  match e with
  | .directory => (t.makeDirectories p).2
  | .file _ =>
    match t.makeDirectories p.dropLast with
    | (.error _, t) => t
    | (.ok (), t) =>
      match t.find p with
      | .error _ => t
      | .ok (some .directory) => t
      | .ok _ => t.put p e

/-- What is below a path, by the paths from there. -/
def below (t : FileTree) (top : Path) : List (Path × FileEntry) :=
  t.entries.filterMap fun e =>
    if top.isPrefixOf e.1 ∧ e.1 ≠ top then some (e.1.drop top.length, e.2) else none

end FileTree

end TableTail
