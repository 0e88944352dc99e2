import TableTail.Files.Tree
import TableTail.Process.Program

/-!
# Replacing a file

A file is replaced by writing its new content to a temporary file beside it, making that durable,
and giving it the file's name. Readers see the old content or the new one and nothing in between,
wherever the steps are cut off; when a step fails, the temporary file is removed.
-/

namespace TableTail

/-- A step on the file system. -/
inductive FileStep
  | makeDirectories (directory : Path)
  | createTemporary (directory : Path)
  | write (file : Path) (bytes : List UInt8)
  | sync (file : Path)
  | rename (source target : Path)
  | remove (file : Path)
  deriving DecidableEq, Repr

/-- What a step answers: a temporary file's path, or how many bytes were written. -/
def FileStep.Answer : FileStep → Type
  | makeDirectories _ => Except FileError Unit
  | createTemporary _ => Except FileError Path
  | write _ _ => Except FileError Nat
  | sync _ => Except FileError Unit
  | rename _ _ => Except FileError Unit
  | remove _ => Except FileError Unit

/-- A program of file steps. -/
abbrev FileProgram (α : Type) : Type := Program FileStep FileStep.Answer α

namespace FileProgram

/-- Writes bytes to a file, in as many steps as the system takes for them. The first number bounds
the steps; the number of bytes is enough. -/
def writeAll (file : Path) : Nat → List UInt8 → FileProgram (Except FileError Unit)
  | _, [] => .done (.ok ())
  | 0, _ :: _ => .done (.error .nothingWritten)
  | steps + 1, b :: bytes =>
    .ask (.write file (b :: bytes)) fun (answer : Except FileError Nat) =>
      match answer with
      | .error e => .done (.error e)
      | .ok 0 => .done (.error .nothingWritten)
      | .ok (n + 1) => writeAll file steps ((b :: bytes).drop (n + 1))

/-- Removes a temporary file after a failure, which is answered. -/
def abandon (file : Path) (e : FileError) : FileProgram (Except FileError Unit) :=
  .ask (.remove file) fun _ => .done (.error e)

/-- Writes a temporary file and gives it the target's name. -/
def fillAndRename (temporary target : Path) (bytes : List UInt8) :
    FileProgram (Except FileError Unit) :=
  (writeAll temporary bytes.length bytes).bind fun written =>
    match written with
    | .error e => abandon temporary e
    | .ok () =>
      .ask (.sync temporary) fun (synced : Except FileError Unit) =>
        match synced with
        | .error e => abandon temporary e
        | .ok () =>
          .ask (.rename temporary target) fun (renamed : Except FileError Unit) =>
            match renamed with
            | .error e => abandon temporary e
            | .ok () => .done (.ok ())

/-- Replaces the file with a name in a directory, which is made if it is missing. -/
def replace (directory : Path) (name : String) (bytes : List UInt8) :
    FileProgram (Except FileError Unit) :=
  .ask (.makeDirectories directory) fun (made : Except FileError Unit) =>
    match made with
    | .error e => .done (.error e)
    | .ok () =>
      .ask (.createTemporary directory) fun (created : Except FileError Path) =>
        match created with
        | .error e => .done (.error e)
        | .ok temporary => fillAndRename temporary (directory ++ [name]) bytes

end FileProgram

namespace FileTree

/-- Takes a step on a tree, without faults. -/
def step : (s : FileStep) → FileTree → s.Answer × FileTree
  | .makeDirectories d, t => t.makeDirectories d
  | .createTemporary d, t => t.createTemporary d
  | .write p bytes, t => t.append p bytes
  | .sync _, t => (.ok (), t)
  | .rename a b, t => t.rename a b
  | .remove p, t => (.ok (), t.erase p)

/-- Replaces the text of a file in a tree. -/
def replaceText (t : FileTree) (directory : Path) (name contents : String) :
    Except FileError Unit × FileTree :=
  (FileProgram.replace directory name (bytesOfText contents)).run FileTree.step (fun _ t => t) t

end FileTree

end TableTail
