import TableTail.Url.Percent
import TableTail.Url.Punycode

/-!
# Hosts

The host of an address: a name, or an internet address of version 4 or 6. The schemes of the web
have names in lower case and in ASCII, and read numbers as addresses; for other schemes a name is
any text without delimiters.
-/

namespace TableTail.Url

/-- A host. -/
inductive Host
  | name (text : List Char)
  | v4 (address : Nat)
  | v6 (pieces : List Nat)
  deriving DecidableEq, Repr

/-- The dotted text of a version 4 address. -/
def v4Text (n : Nat) : String :=
  Text.natText (n / 2 ^ 24) ++ "." ++ Text.natText (n / 2 ^ 16 % 256) ++ "." ++
    Text.natText (n / 2 ^ 8 % 256) ++ "." ++ Text.natText (n % 256)

/-- The hexadecimal text of a number without leading zeros. -/
def hexText (n : Nat) : List Char :=
  if n < 16 then [Text.hexChar n] else hexText (n / 16) ++ [Text.hexChar (n % 16)]

/-- The first longest run of zeros, as its start and length, at least two long. -/
def longestZeros (pieces : List Nat) : Option (Nat × Nat) :=
  let runs := (List.range pieces.length).map fun i => (i, ((pieces.drop i).takeWhile (· = 0)).length)
  runs.foldl (fun best (i, n) =>
    if n < 2 then best
    else match best with
      | some (_, m) => if m < n then some (i, n) else best
      | none => some (i, n)) none

/-- The text of a version 6 address, its longest run of zeros left out. -/
def v6Text (pieces : List Nat) : String :=
  let join := fun ps => String.intercalate ":" (ps.map fun p => String.ofList (hexText p))
  match longestZeros pieces with
  | none => join pieces
  | some (i, n) => join (pieces.take i) ++ "::" ++ join (pieces.drop (i + n))

/-- The text of a host. -/
def Host.text : Host → String
  | .name s => String.ofList s
  | .v4 n => v4Text n
  | .v6 ps => "[" ++ v6Text ps ++ "]"

/-- A version 4 address of four plain numbers, as it may end a version 6 address. -/
def readDotted (s : List Char) : Option Nat :=
  let parts := s.splitOn '.'
  if parts.length = 4 then
    parts.foldlM (fun n part => do
      let ds ← Text.digits? part
      if ds.isEmpty ∨ (ds.length ≠ 1 ∧ ds.head? = some 0) ∨ 3 < ds.length then none
      else
        let v := Text.ofDigits ds
        if v < 256 then some (256 * n + v) else none) 0
  else none

/-- Pieces of a version 6 address joined by colons; a dotted address at the end is two of them. -/
def readPieces (s : List Char) : Option (List Nat) :=
  if s.isEmpty then some []
  else
    let parts := s.splitOn ':'
    let piece := fun (p : List Char) => do
      let ds ← p.mapM Text.hexDigit?
      if ds.isEmpty ∨ 4 < ds.length then none
      else some (ds.foldl (fun n d => 16 * n + d) 0)
    match parts.getLast? with
    | some last =>
      if last.contains '.' then do
        let front ← parts.dropLast.mapM piece
        let n ← readDotted last
        some (front ++ [n / 65536, n % 65536])
      else parts.mapM piece
    | none => none

/-- The text before and after the first double colon. -/
def splitDouble : List Char → List Char → Option (List Char × List Char)
  | _, [] => none
  | seen, ':' :: ':' :: rest => some (seen.reverse, rest)
  | seen, c :: rest => splitDouble (c :: seen) rest

/-- A version 6 address: eight pieces, or fewer around one double colon. -/
def readV6 (s : List Char) : Option Host :=
  match splitDouble [] s with
  | none => (readPieces s).bind fun ps => if ps.length = 8 then some (.v6 ps) else none
  | some (front, back) => do
    let front ← readPieces front
    let back ← readPieces back
    if front.length + back.length < 8 then
      some (.v6 (front ++ List.replicate (8 - front.length - back.length) 0 ++ back))
    else none

/-- A part of a version 4 address: hexadecimal behind `0x`, octal behind a zero. -/
def readV4Part (s : List Char) : Option Nat :=
  let based := fun (base : Nat) (s : List Char) => do
    let ds ← s.mapM Text.hexDigit?
    if ds.all (· < base) then some (ds.foldl (fun n d => base * n + d) 0) else none
  match s with
  | [] => none
  | '0' :: x :: rest => if x = 'x' ∨ x = 'X' then based 16 rest else based 8 (x :: rest)
  | s => based 10 s

/-- The parts of a name between its points, a point at the end not counted. -/
def labels (s : List Char) : List (List Char) :=
  let parts := s.splitOn '.'
  if 1 < parts.length ∧ parts.getLast? = some [] then parts.dropLast else parts

/-- Whether a name must be a version 4 address: its last part is a number. -/
def endsInNumber (s : List Char) : Bool :=
  match (labels s).getLast? with
  | some last =>
    (!last.isEmpty && last.all Text.isDigit) ||
      ((last.take 2 = ['0', 'x'] || last.take 2 = ['0', 'X']) && (readV4Part last).isSome)
  | none => false

/-- A version 4 address of up to four parts, the last of which fills the bytes left. -/
def readV4 (s : List Char) : Option Host := do
  let parts ← (labels s).mapM readV4Part
  if parts.isEmpty ∨ 4 < parts.length then none
  else
    let front := parts.dropLast
    let last ← parts.getLast?
    if front.all (· < 256) ∧ last < 256 ^ (5 - parts.length) then
      let high := (front.zipIdx).foldl (fun n (p, i) => n + p * 256 ^ (3 - i)) 0
      some (.v4 (high + last))
    else none

/-- The lower case of a letter of the Latin, Greek and Cyrillic alphabets. -/
def lower (c : Char) : Char :=
  let n := c.toNat
  if 0x41 ≤ n ∧ n ≤ 0x5A then Char.ofNat (n + 32)
  else if (0xC0 ≤ n ∧ n ≤ 0xDE ∧ n ≠ 0xD7) ∨ (0x391 ≤ n ∧ n ≤ 0x3A9) ∨ (0x410 ≤ n ∧ n ≤ 0x42F) then
    Char.ofNat (n + 32)
  else if 0x400 ≤ n ∧ n ≤ 0x40F then Char.ofNat (n + 80)
  else if 0x100 ≤ n ∧ n ≤ 0x137 ∧ n % 2 = 0 then Char.ofNat (n + 1)
  else c

/-- The ASCII form of a label. -/
def asciiLabel (label : List Char) : List Char :=
  if label.all (·.toNat < 0x80) then label else 'x' :: 'n' :: '-' :: '-' :: Punycode.encode label

/-- The points that separate labels. -/
def isDot (c : Char) : Bool :=
  c = '.' || c.toNat = 0x3002 || c.toNat = 0xFF0E || c.toNat = 0xFF61

/-- A character that no host name has. -/
def isForbidden (c : Char) : Bool :=
  c.toNat ≤ 0x20 || c.toNat = 0x7F || "%#/:<>?@[\\]^|".toList.contains c

/-- A host name of the web in its ASCII form. -/
def asciiName (s : List Char) : Option (List Char) :=
  let mapped := s.map fun c => if isDot c then '.' else lower c
  let name := ['.'].intercalate ((mapped.splitOn '.').map asciiLabel)
  if name.isEmpty ∨ name.any isForbidden then none else some name

/-- The host of an address of the web. -/
def readWebHost (s : List Char) : Option Host :=
  match s with
  | '[' :: rest => if rest.getLast? = some ']' then readV6 rest.dropLast else none
  | s => do
    let name ← asciiName (← unescape? s)
    if endsInNumber name then readV4 name else some (.name name)

/-- A character that delimits hosts of other schemes. -/
def isDelimiter (c : Char) : Bool :=
  "\x00\t\n\r #/:<>?@[\\]^|".toList.contains c

/-- The host of an address with another scheme, which may be empty. -/
def readOtherHost (s : List Char) : Option Host :=
  match s with
  | '[' :: rest => if rest.getLast? = some ']' then readV6 rest.dropLast else none
  | s => if s.any isDelimiter then none else some (.name (escapeAll escapedAlways s))

end TableTail.Url
