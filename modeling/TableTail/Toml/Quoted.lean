import TableTail.Text.Digits

/-!
# TOML strings

The four kinds of strings: with or without escapes, on one line or on several. Each reader starts
behind the opening quotes and gives the characters of the string and what follows its closing
quotes. A line break inside a string of several lines is a single line feed.
-/

namespace TableTail.Toml

/-- A character that may stand in a string or a comment: no control character but the tab. -/
def isPrintable (c : Char) : Bool := c = '\t' || (0x20 ≤ c.toNat && c.toNat ≠ 0x7F)

/-- The character of a code point, which is no half of a pair. -/
def scalarValue? (n : Nat) : Option Char :=
  if n.isValidChar then some (Char.ofNat n) else none

/-- The character of the hexadecimal digits at the start. -/
def codePoint (count : Nat) (s : List Char) : Option (Char × List Char) := do
  let ds ← (s.take count).mapM Text.hexDigit?
  if ds.length = count then
    let c ← scalarValue? (ds.foldl (fun n d => 16 * n + d) 0)
    some (c, s.drop count)
  else none

/-- The character of an escape, behind its backslash. -/
def escaped : List Char → Option (Char × List Char)
  | 'b' :: rest => some ('\x08', rest)
  | 't' :: rest => some ('\t', rest)
  | 'n' :: rest => some ('\n', rest)
  | 'f' :: rest => some ('\x0c', rest)
  | 'r' :: rest => some ('\r', rest)
  | '"' :: rest => some ('"', rest)
  | '\\' :: rest => some ('\\', rest)
  | 'u' :: rest => codePoint 4 rest
  | 'U' :: rest => codePoint 8 rest
  | _ => none

/-- A line break at the start, and what follows. -/
def lineBreak : List Char → Option (List Char)
  | '\n' :: rest => some rest
  | '\r' :: '\n' :: rest => some rest
  | _ => none

/-- Blanks of a line at the start dropped. -/
def skipBlanks (s : List Char) : List Char := s.dropWhile fun c => c = ' ' || c = '\t'

/-- Blanks and line breaks dropped; `fuel` bounds the number of characters. -/
def skipLines : Nat → List Char → List Char
  | 0, s => s
  | fuel + 1, s =>
    match s with
    | ' ' :: rest => skipLines fuel rest
    | '\t' :: rest => skipLines fuel rest
    | s =>
      match lineBreak s with
      | some rest => skipLines fuel rest
      | none => s

/-- A string without escapes on one line. -/
def literal : List Char → Option (List Char × List Char)
  | [] => none
  | '\'' :: rest => some ([], rest)
  | c :: rest => if isPrintable c then (literal rest).map fun (cs, r) => (c :: cs, r) else none

/-- A string with escapes on one line; `fuel` bounds the number of characters. -/
def basic : Nat → List Char → Option (List Char × List Char)
  | 0, _ => none
  | _, [] => none
  | _ + 1, '"' :: rest => some ([], rest)
  | fuel + 1, '\\' :: rest => do
    let (c, rest) ← escaped rest
    (basic fuel rest).map fun (cs, r) => (c :: cs, r)
  | fuel + 1, c :: rest =>
    if isPrintable c then (basic fuel rest).map fun (cs, r) => (c :: cs, r) else none

/-- The quotes at the end of a string of several lines: three close it, and up to two more before
those belong to it. -/
def closing (quote : Char) (s : List Char) : Option (List Char × List Char) :=
  let n := (s.takeWhile (· = quote)).length
  if n < 3 then none
  else some (List.replicate (min n 5 - 3) quote, s.drop (min n 5))

/-- A string of several lines without escapes; `fuel` bounds the number of characters. -/
def longLiteral : Nat → List Char → Option (List Char × List Char)
  | 0, _ => none
  | _, [] => none
  | fuel + 1, c :: rest =>
    match closing '\'' (c :: rest) with
    | some r => some r
    | none =>
      match lineBreak (c :: rest) with
      | some rest => (longLiteral fuel rest).map fun (cs, r) => ('\n' :: cs, r)
      | none =>
        if isPrintable c then (longLiteral fuel rest).map fun (cs, r) => (c :: cs, r) else none

/-- A string of several lines with escapes, where a backslash at the end of a line joins it with
the next text; `fuel` bounds the number of characters. -/
def longBasic : Nat → List Char → Option (List Char × List Char)
  | 0, _ => none
  | _, [] => none
  | fuel + 1, c :: rest =>
    match closing '"' (c :: rest) with
    | some r => some r
    | none =>
      if c = '\\' then
        match lineBreak (skipBlanks rest) with
        | some below => longBasic fuel (skipLines below.length below)
        | none => do
          let (d, rest) ← escaped rest
          (longBasic fuel rest).map fun (cs, r) => (d :: cs, r)
      else
        match lineBreak (c :: rest) with
        | some rest => (longBasic fuel rest).map fun (cs, r) => ('\n' :: cs, r)
        | none =>
          if isPrintable c then (longBasic fuel rest).map fun (cs, r) => (c :: cs, r) else none

/-- A line break right behind the opening quotes is not part of the string. -/
def dropFirstBreak (s : List Char) : List Char := (lineBreak s).getD s

/-- A string of any kind, from its opening quotes on. -/
def readString : List Char → Option (String × List Char)
  | '"' :: '"' :: '"' :: rest =>
    (longBasic rest.length (dropFirstBreak rest)).map fun (cs, r) => (String.ofList cs, r)
  | '\'' :: '\'' :: '\'' :: rest =>
    (longLiteral rest.length (dropFirstBreak rest)).map fun (cs, r) => (String.ofList cs, r)
  | '"' :: rest => (basic rest.length rest).map fun (cs, r) => (String.ofList cs, r)
  | '\'' :: rest => (literal rest).map fun (cs, r) => (String.ofList cs, r)
  | _ => none

end TableTail.Toml
