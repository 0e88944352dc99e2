import TableTail.Text.Blank
import TableTail.Text.Digits

/-!
# SQL identifiers

Plain identifiers are up to 63 ASCII letters, digits and underscores, and do not start with a
digit: the same text is then safe in a statement, in a file name and in a message. Any text can be
written as a quoted identifier, in which a quote is doubled.
-/

namespace TableTail.Sql

/-- The longest plain identifier, in bytes. -/
def maxIdentifierLength : Nat := 63

/-- Why a text is no plain identifier; a text is given without the blanks around it. -/
inductive IdentifierFault
  | blank
  | tooLong (text : String)
  | badStart (text : String) (first : Char)
  | badCharacter (text : String) (c : Char) (position : Nat)
  deriving DecidableEq, Repr

/-- Whether a character may start a plain identifier. -/
def startsIdentifier (c : Char) : Bool := c.isAlpha || c = '_'

/-- Whether a character may stand in a plain identifier. -/
def continuesIdentifier (c : Char) : Bool := c.isAlphanum || c = '_'

/-- A text made fit for a message: no control characters, and no more than a hundred others. -/
def displayText (text : String) : String :=
  String.ofList ((text.toList.filter fun c => !Text.isControl c).take 100)

/-- A character made fit for a message: the code of a control character, any other as it is. -/
def displayChar (c : Char) : String :=
  if Text.isControl c then
    "\\x" ++ String.ofList [Text.hexChar (c.toNat / 16 % 16), Text.hexChar (c.toNat % 16)]
  else String.singleton c

/-- The wording of an identifier's fault. -/
def IdentifierFault.message : IdentifierFault → String
  | .blank => "Identifier cannot be empty or whitespace-only"
  | .tooLong text =>
    "Identifier '" ++ displayText text ++ "' exceeds maximum length of " ++
      Text.natText maxIdentifierLength ++ " characters (got " ++
      Text.natText text.utf8ByteSize ++ ")"
  | .badStart text first =>
    "Identifier '" ++ displayText text ++ "' must start with a letter or underscore, not '" ++
      String.singleton first ++ "'"
  | .badCharacter text c position =>
    "Identifier '" ++ displayText text ++ "' contains invalid character '" ++ displayChar c ++
      "' at position " ++ Text.natText position ++
      ". Only letters, digits, and underscores are allowed"

/-- The first character that may not stand in a plain identifier, with its position. -/
def firstBadCharacter : Nat → List Char → Option (Char × Nat)
  | _, [] => none
  | i, c :: rest => if continuesIdentifier c then firstBadCharacter (i + 1) rest else some (c, i)

/-- The fault of a text as a plain identifier, after the blanks around it are taken off. -/
def identifierFault? (text : String) : Option IdentifierFault :=
  let trimmed := Text.trim text
  match trimmed.toList with
  | [] => some .blank
  | first :: _ =>
    if maxIdentifierLength < trimmed.utf8ByteSize then some (.tooLong trimmed)
    else if !startsIdentifier first then some (.badStart trimmed first)
    else (firstBadCharacter 0 trimmed.toList).map fun (c, i) => .badCharacter trimmed c i

/-- The inside of a quoted identifier: a quote is written twice. -/
def doubleQuotes : List Char → List Char
  | [] => []
  | c :: rest => if c = '"' then '"' :: '"' :: doubleQuotes rest else c :: doubleQuotes rest

/-- A text as a quoted identifier. -/
def quoted (text : String) : String :=
  String.ofList ('"' :: (doubleQuotes text.toList ++ ['"']))

end TableTail.Sql
