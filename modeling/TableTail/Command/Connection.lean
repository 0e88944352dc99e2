import TableTail.Files.Path
import TableTail.Settings.Basic
import TableTail.Tables.Source
import TableTail.Url.Reading

/-!
# Connections

What a source's address says: which database it leads to, and under which catalog name the
database's checkpoints are kept. Messages show an address without its password.
-/

namespace TableTail.Command

/-- The name of the last component of a path, when it is one that a file can have. -/
def fileName? (path : String) : Option String :=
  match ((Path.splitSlash path.toList).filter fun part => part ≠ [] ∧ part ≠ ['.']).getLast? with
  | none => none
  | some ['.', '.'] => none
  | some part => some (String.ofList part)

/-- A file's name without what follows its last dot; a dot in front belongs to the name. -/
def stem (name : String) : String :=
  match (name.toList.reverse.dropWhile (· ≠ '.')) with
  | _ :: c :: rest => String.ofList (c :: rest).reverse
  | _ => name

/-- The catalog name of a database file. -/
def fileCatalog (path : String) : String := ((fileName? path).map stem).getD "main"

/-- A text without what it begins with, if it begins so. -/
def dropStart? (start text : String) : Option String :=
  if start.toList.isPrefixOf text.toList then
    some (String.ofList (text.toList.drop start.toList.length))
  else none

/-- The catalog name that the database at an address would have, worked out without it: a file's
stem, or the database's name, or else the user's. -/
def catalogHint (url : String) : String :=
  match dropStart? "sqlite://" url with
  | some path => fileCatalog path
  | none =>
    match Url.read? url with
    | none => "default"
    | some u =>
      let name := u.path.text.toList.dropWhile (· = '/')
      if name.isEmpty then String.ofList u.user else String.ofList name

/-- Where an address leads. -/
inductive Target
  | server
  | file (path : String)
  | unknown
  deriving DecidableEq, Repr

/-- Where an address leads, by its scheme in small letters. -/
def target (url : String) : Target :=
  if (dropStart? "postgres://" url).isSome || (dropStart? "postgresql://" url).isSome then .server
  else
    match dropStart? "sqlite://" url with
    | some path => .file path
    | none => .unknown

/-- Why there is no connection. -/
inductive ConnectFault
  | unreachable (url : String)
  | noFile (path : String)
  | unsupported (url : String)
  deriving DecidableEq, Repr

/-- The wording of a missing connection. -/
def ConnectFault.message : ConnectFault → String
  | .unreachable url => "Failed to connect to " ++ Url.redact url
  | .noFile path => "SQLite database '" ++ path ++ "' does not exist"
  | .unsupported url =>
    "Unsupported source URL '" ++ Url.redact url ++
      "': expected postgres://, postgresql:// or sqlite://"

/-- The database at a source's address, given which files there are. No server is reached. -/
def connect (exists? : String → Bool) (s : SourceSettings) : Except ConnectFault Source :=
  match target s.url with
  | .server => .error (.unreachable s.url)
  | .unknown => .error (.unsupported s.url)
  | .file path =>
    if exists? path then .ok ⟨.sqlite, fileCatalog path, s.schema⟩ else .error (.noFile path)

end TableTail.Command
