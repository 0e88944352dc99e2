import TableTail.Toml.Quoted
import TableTail.Toml.Scalar
import TableTail.Toml.Table

/-!
# Reading TOML

A TOML 1.0 document as a tree of values. The text is read expression by expression: a header of a
table, a header of an element of an array of tables, or a key with its value.
-/

namespace TableTail.Toml

/-- A character of a key without quotes. -/
def isBare (c : Char) : Bool := c.isAlphanum || c = '_' || c = '-'

/-- One key, with or without quotes. -/
def simpleKey (s : List Char) : Option (String × List Char) :=
  match s with
  | '"' :: _ => if s.take 3 = ['"', '"', '"'] then none else readString s
  | '\'' :: _ => if s.take 3 = ['\'', '\'', '\''] then none else readString s
  | s =>
    let cs := s.takeWhile isBare
    if cs.isEmpty then none else some (String.ofList cs, s.drop cs.length)

/-- Keys joined by points; the last one is given apart. `fuel` bounds their number. -/
def dottedKey : Nat → List Char → Option ((List String × String) × List Char)
  | 0, _ => none
  | fuel + 1, s => do
    let (key, rest) ← simpleKey s
    match skipBlanks rest with
    | '.' :: more => do
      let ((path, last), rest) ← dottedKey fuel (skipBlanks more)
      some ((key :: path, last), rest)
    | _ => some (([], key), rest)

/-- A comment at the start, up to the end of its line. -/
def skipComment (s : List Char) : List Char :=
  match s with
  | '#' :: rest => rest.dropWhile isPrintable
  | s => s

/-- Blanks, line breaks and comments dropped; `fuel` bounds the number of pieces. -/
def skipFiller : Nat → List Char → List Char
  | 0, s => s
  | fuel + 1, s =>
    let t := skipComment (skipBlanks s)
    match lineBreak t with
    | some rest => skipFiller fuel rest
    | none => t

/-- The number of arrays and inline tables that may be open at once. -/
def depthLimit : Nat := 80

mutual

/-- A value of any kind. `fuel` bounds the number of steps and `depth` the nesting. -/
def readValue : Nat → Nat → List Char → Option (Json × List Char)
  | 0, _, _ => none
  | fuel + 1, depth, s =>
    match s with
    | '"' :: _ => (readString s).map fun (v, r) => (.string v, r)
    | '\'' :: _ => (readString s).map fun (v, r) => (.string v, r)
    | '[' :: rest =>
      if depth = 0 then none
      else (readItems fuel (depth - 1) rest).map fun (items, r) => (.array items, r)
    | '\x7b' :: rest =>
      if depth = 0 then none
      else
        match skipBlanks rest with
        | '\x7d' :: rest => some (.object [], rest)
        | rest =>
          (readPairs fuel (depth - 1) [] rest).map fun (entries, r) =>
            (Json.ofFields (entriesToJson entries), r)
    | s =>
      let cs := scalarChars s
      (scalar? cs).map fun v => (v, s.drop cs.length)

/-- The items of an array, behind its opening bracket or a comma. -/
def readItems : Nat → Nat → List Char → Option (List Json × List Char)
  | 0, _, _ => none
  | fuel + 1, depth, s =>
    match skipFiller s.length s with
    | ']' :: rest => some ([], rest)
    | s => do
      let (v, rest) ← readValue fuel depth s
      match skipFiller rest.length rest with
      | ',' :: rest => do
        let (items, rest) ← readItems fuel depth rest
        some (v :: items, rest)
      | ']' :: rest => some ([v], rest)
      | _ => none

/-- The pairs of an inline table, behind its opening brace or a comma. -/
def readPairs : Nat → Nat → Entries → List Char → Option (Entries × List Char)
  | 0, _, _, _ => none
  | fuel + 1, depth, entries, s => do
    let ((path, key), rest) ← dottedKey s.length (skipBlanks s)
    match skipBlanks rest with
    | '=' :: rest => do
      let (v, rest) ← readValue fuel depth (skipBlanks rest)
      let entries ← setKey path key v entries
      match skipBlanks rest with
      | ',' :: rest => readPairs fuel depth entries rest
      | '\x7d' :: rest => some (entries, rest)
      | _ => none
    | _ => none

end

/-- The end of a line: blanks, a comment, and a line break or the end of the text. -/
def endLine (s : List Char) : Option (List Char) :=
  match skipComment (skipBlanks s) with
  | [] => some []
  | t => lineBreak t

/-- What has been read of a document: its tables, and the path of the last header. -/
structure Draft where
  root : Entries
  header : List String

/-- One expression with its line end, from its first character on. -/
def readExpression (draft : Draft) (s : List Char) : Option (Draft × List Char) :=
  match s with
  | '[' :: '[' :: rest => do
    let ((path, key), rest) ← dottedKey s.length (skipBlanks rest)
    match skipBlanks rest with
    | ']' :: ']' :: rest =>
      let root ← openElement path key draft.root
      let rest ← endLine rest
      some (⟨root, path ++ [key]⟩, rest)
    | _ => none
  | '[' :: rest => do
    let ((path, key), rest) ← dottedKey s.length (skipBlanks rest)
    match skipBlanks rest with
    | ']' :: rest =>
      let root ← openTable path key draft.root
      let rest ← endLine rest
      some (⟨root, path ++ [key]⟩, rest)
    | _ => none
  | s => do
    let ((path, key), rest) ← dottedKey s.length s
    match skipBlanks rest with
    | '=' :: rest =>
      let (v, rest) ← readValue (2 * s.length + 2) depthLimit (skipBlanks rest)
      let root ← setBelow draft.header path key v draft.root
      let rest ← endLine rest
      some (⟨root, draft.header⟩, rest)
    | _ => none

/-- The expressions of a document; `fuel` bounds their number. -/
def readExpressions : Nat → Draft → List Char → Option Draft
  | 0, _, _ => none
  | fuel + 1, draft, s =>
    match skipFiller s.length s with
    | [] => some draft
    | s => do
      let (draft, rest) ← readExpression draft s
      readExpressions fuel draft rest

/-- The document that a text denotes. A byte-order mark at its start is not part of it. -/
def read? (text : String) : Option Json :=
  let s := match text.toList with
    | '\uFEFF' :: rest => rest
    | s => s
  (readExpressions (s.length + 1) ⟨[], []⟩ s).map fun draft =>
    Json.ofFields (entriesToJson draft.root)

end TableTail.Toml
