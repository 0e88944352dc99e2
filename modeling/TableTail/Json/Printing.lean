import TableTail.Json.Value
import TableTail.Number.Shortest

/-!
# JSON text

The compact text of a document: no blanks, and only the escapes that JSON requires.
-/

namespace TableTail.Json

/-- A character inside a JSON string. -/
def escape (c : Char) : List Char :=
  if c = '"' then ['\\', '"']
  else if c = '\\' then ['\\', '\\']
  else if c = '\n' then ['\\', 'n']
  else if c = '\r' then ['\\', 'r']
  else if c = '\t' then ['\\', 't']
  else if c = '\x08' then ['\\', 'b']
  else if c = '\x0c' then ['\\', 'f']
  else if c.toNat < 0x20 then
    ['\\', 'u', '0', '0', Text.hexChar (c.toNat / 16), Text.hexChar (c.toNat % 16)]
  else [c]

/-- A string in quotes. -/
def stringText (s : String) : String :=
  "\"" ++ String.ofList (s.toList.flatMap escape) ++ "\""

/-- The text of a number. -/
def Number.text : Number → String
  | .int i => Text.intText i
  | .real x => x.jsonText

mutual

/-- The compact text of a document. -/
def text : Json → String
  | .null => "null"
  | .bool true => "true"
  | .bool false => "false"
  | .number n => n.text
  | .string s => stringText s
  | .array [] => "[]"
  | .array (x :: xs) => "[" ++ text x ++ itemsText xs ++ "]"
  | .object [] => "\x7b\x7d"
  | .object ((name, x) :: fields) =>
    "\x7b" ++ stringText name ++ ":" ++ text x ++ fieldsText fields ++ "\x7d"

/-- Items that follow another one. -/
def itemsText : List Json → String
  | [] => ""
  | x :: xs => "," ++ text x ++ itemsText xs

/-- Fields that follow another one. -/
def fieldsText : List (String × Json) → String
  | [] => ""
  | (name, x) :: fields => "," ++ stringText name ++ ":" ++ text x ++ fieldsText fields

end

end TableTail.Json
