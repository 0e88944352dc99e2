import TableTail.Text.Digits

/-!
# Percent encoding

Characters of an address that stand for themselves, and the escapes of all others: the bytes of
their UTF-8 form, each as `%` and two hexadecimal digits.
-/

namespace TableTail.Url

/-- One byte as `%` and two digits. -/
def escapeByte (b : UInt8) : List Char :=
  ['%', Text.hexCharUpper (b.toNat / 16), Text.hexCharUpper (b.toNat % 16)]

/-- The bytes of a character in UTF-8. -/
def bytesOf (c : Char) : List UInt8 := (String.singleton c).toUTF8.toList

/-- The characters that are escaped everywhere: controls and everything outside ASCII. -/
def escapedAlways (c : Char) : Bool := c.toNat < 0x20 || 0x7F ≤ c.toNat

/-- The characters escaped in a fragment. -/
def escapedInFragment (c : Char) : Bool :=
  escapedAlways c || c = ' ' || c = '"' || c = '<' || c = '>' || c.toNat = 0x60

/-- The characters escaped in a query. -/
def escapedInQuery (special : Bool) (c : Char) : Bool :=
  escapedAlways c || c = ' ' || c = '"' || c = '#' || c = '<' || c = '>' || (special && c = '\'')

/-- The characters escaped in a path. -/
def escapedInPath (c : Char) : Bool :=
  escapedInFragment c || c = '#' || c = '?' || c = '\x7b' || c = '\x7d'

/-- The characters escaped in a user name or password. -/
def escapedInUser (c : Char) : Bool :=
  escapedInPath c || c = '/' || c = ':' || c = ';' || c = '=' || c = '@' || c = '[' || c = '\\' ||
    c = ']' || c = '^' || c = '|'

/-- The characters with those of a class escaped. -/
def escapeAll (escaped : Char → Bool) (s : List Char) : List Char :=
  s.flatMap fun c => if escaped c then (bytesOf c).flatMap escapeByte else [c]

/-- The bytes of a text with its escapes undone; a `%` without two digits stands for itself. -/
def unescapeBytes : List Char → List UInt8
  | [] => []
  | '%' :: a :: b :: rest =>
    match Text.hexDigit? a, Text.hexDigit? b with
    | some x, some y => UInt8.ofNat (16 * x + y) :: unescapeBytes rest
    | _, _ => '%'.toUInt8 :: unescapeBytes (a :: b :: rest)
  | c :: rest => bytesOf c ++ unescapeBytes rest

/-- A text with its escapes undone, if that is UTF-8. -/
def unescape? (s : List Char) : Option (List Char) :=
  (String.fromUTF8? ⟨(unescapeBytes s).toArray⟩).map String.toList

end TableTail.Url
