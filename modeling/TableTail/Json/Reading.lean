import TableTail.Json.Value
import TableTail.Text.Digits

/-!
# Reading JSON

A text is split into tokens, one character at a time, and the tokens are put together with a stack
of the arrays and objects still open, of which there are at most 127. Numbers with a point or an
exponent are computed in double arithmetic from the digits that fit into 64 bits, so the last bit
of a long one may differ from the nearest double.
-/

namespace TableTail.Json

/-- A lexical unit of a document. -/
inductive Token
  | openArray
  | closeArray
  | openObject
  | closeObject
  | comma
  | colon
  | null
  | bool (value : Bool)
  | number (value : Number)
  | string (value : String)
  deriving DecidableEq, Repr

/-- A piece of a string: a character as it stands, or a 16-bit unit written by its number. -/
inductive Piece
  | char (c : Char)
  | unit (code : Nat)
  deriving DecidableEq, Repr

/-- The characters of a string. A unit of the upper half of a pair needs the lower half next. -/
def join : List Piece → Option (List Char)
  | [] => some []
  | .char c :: rest => (join rest).map (c :: ·)
  | .unit high :: .unit low :: rest =>
    if 0xD800 ≤ high ∧ high < 0xDC00 then
      if 0xDC00 ≤ low ∧ low < 0xE000 then
        (join rest).map (Char.ofNat (0x10000 + (high - 0xD800) * 0x400 + (low - 0xDC00)) :: ·)
      else none
    else if 0xDC00 ≤ high ∧ high < 0xE000 then none
    else (join (.unit low :: rest)).map (Char.ofNat high :: ·)
  | .unit code :: rest =>
    if 0xD800 ≤ code ∧ code < 0xE000 then none else (join rest).map (Char.ofNat code :: ·)

/-- The character that a backslash and a letter stand for. -/
def unescape (c : Char) : Option Char :=
  if c = '"' ∨ c = '\\' ∨ c = '/' then some c
  else if c = 'b' then some '\x08'
  else if c = 'f' then some '\x0c'
  else if c = 'n' then some '\n'
  else if c = 'r' then some '\r'
  else if c = 't' then some '\t'
  else none

/-- The leading digits of a number as far as they fit into 64 bits, how many those are, and the
digits left over. -/
def fitting : Nat → Nat → List Nat → Nat × Nat × List Nat
  | n, count, [] => (n, count, [])
  | n, count, d :: ds =>
    if 10 * n + d < 2 ^ 64 then fitting (10 * n + d) (count + 1) ds else (n, count, d :: ds)

/-- `± n * 10 ^ e` in double arithmetic, nothing when it overflows. Below the least power of ten
that is a double it takes up to `fuel` divisions. -/
def scale (negative : Bool) (x : Binary64) (e : Int) : Nat → Option Binary64
  | 0 => none
  | fuel + 1 =>
    let signed := fun (x : Binary64) => if negative then x.neg else x
    if e.natAbs ≤ 308 then
      let power := Binary64.ofRatio false (10 ^ e.natAbs) 1
      if 0 ≤ e then
        let y := x.times power
        if y.isInfinite then none else some (signed y)
      else some (signed (x.dividedBy power))
    else if x.magnitude = 0 then some (signed x)
    else if 0 ≤ e then none
    else scale negative (x.dividedBy (Binary64.ofRatio false (10 ^ 308) 1)) (e + 308) fuel

/-- The double of the parts of a number: digits before and behind the point, and the exponent. -/
def realOfParts (negative : Bool) (whole places : List Nat) (e : Int) : Option Binary64 :=
  let (n, _, left) := fitting 0 0 whole
  let (n, used, _) := fitting n 0 places
  if n = 0 then some (Binary64.ofParts negative 0 0)
  else scale negative (Binary64.ofInt n) (left.length - used + e) 8

/-- The exponent of a number, at the end of its text. -/
def readExponent : List Char → Option Int
  | [] => some 0
  | c :: rest =>
    if c = 'e' ∨ c = 'E' then
      let (neg, ds) := match rest with
        | '-' :: ds => (true, ds)
        | '+' :: ds => (false, ds)
        | ds => (false, ds)
      match ds, Text.digits? ds with
      | _ :: _, some ds => some (if neg then -(Text.ofDigits ds : Int) else Text.ofDigits ds)
      | _, _ => none
    else none

/-- A number without a point or an exponent. What 64 bits do not hold is a double, as is the
negative zero. -/
def integerOfParts (negative : Bool) (whole : List Nat) : Option Number :=
  let n := Text.ofDigits whole
  if negative then
    if 0 < n ∧ n ≤ 2 ^ 63 then some (.int (-(n : Int)))
    else (realOfParts true whole [] 0).map .real
  else if n < 2 ^ 64 then some (.int n)
  else (realOfParts false whole [] 0).map .real

/-- The number that a text denotes: no leading zeros, and digits on both sides of a point. -/
def readNumber (s : List Char) : Option Number :=
  let (negative, s) := match s with
    | '-' :: rest => (true, rest)
    | rest => (false, rest)
  let (whole, rest) := Text.spanDigits s
  match whole with
  | [] => none
  | 0 :: _ :: _ => none
  | _ =>
    match rest with
    | [] => integerOfParts negative whole
    | '.' :: rest =>
      let (places, rest) := Text.spanDigits rest
      if places.isEmpty then none
      else (readExponent rest).bind fun e => (realOfParts negative whole places e).map .real
    | rest => (readExponent rest).bind fun e => (realOfParts negative whole [] e).map .real

/-- The token of a word or number that has ended. -/
def wordToken (word : List Char) : Option Token :=
  if word = ['n', 'u', 'l', 'l'] then some .null
  else if word = ['t', 'r', 'u', 'e'] then some (.bool true)
  else if word = ['f', 'a', 'l', 's', 'e'] then some (.bool false)
  else (readNumber word).map .number

/-- Blanks between tokens. -/
def isSpace (c : Char) : Bool := c = ' ' || c = '\n' || c = '\r' || c = '\t'

/-- The token of a character that is one by itself. -/
def markToken (c : Char) : Option Token :=
  if c = '[' then some .openArray
  else if c = ']' then some .closeArray
  else if c = '\x7b' then some .openObject
  else if c = '\x7d' then some .closeObject
  else if c = ',' then some .comma
  else if c = ':' then some .colon
  else none

/-- Where the splitting stands: between tokens, in a word, or in a string, with what was read of it
in reverse. -/
inductive Place
  | between
  | word (read : List Char)
  | inside (read : List Piece)
  | escape (read : List Piece)
  | code (read : List Piece) (digits value : Nat)

/-- The tokens of a text. -/
def tokens : Place → List Char → Option (List Token)
  | .between, [] => some []
  | .word w, [] => (wordToken w.reverse).map fun t => [t]
  | .inside _, [] => none
  | .escape _, [] => none
  | .code _ _ _, [] => none
  | .between, c :: rest =>
    if isSpace c then tokens .between rest
    else if c = '"' then tokens (.inside []) rest
    else
      match markToken c with
      | some t => (tokens .between rest).map (t :: ·)
      | none => tokens (.word [c]) rest
  | .word w, c :: rest =>
    if isSpace c then do
      let t ← wordToken w.reverse
      (tokens .between rest).map (t :: ·)
    else if c = '"' then none
    else
      match markToken c with
      | some m => do
        let t ← wordToken w.reverse
        (tokens .between rest).map fun ts => t :: m :: ts
      | none => tokens (.word (c :: w)) rest
  | .inside p, c :: rest =>
    if c = '"' then do
      let cs ← join p.reverse
      (tokens .between rest).map fun ts => .string (String.ofList cs) :: ts
    else if c = '\\' then tokens (.escape p) rest
    else if c.toNat < 0x20 then none
    else tokens (.inside (.char c :: p)) rest
  | .escape p, c :: rest =>
    if c = 'u' then tokens (.code p 4 0) rest
    else
      match unescape c with
      | some d => tokens (.inside (.char d :: p)) rest
      | none => none
  | .code p left n, c :: rest =>
    match Text.hexDigit? c with
    | some d =>
      if left ≤ 1 then tokens (.inside (.unit (16 * n + d) :: p)) rest
      else tokens (.code p (left - 1) (16 * n + d)) rest
    | none => none

/-- An array or object still open, with what it holds so far in reverse. -/
inductive Frame
  | array (items : List Json)
  | field (fields : List (String × Json)) (name : String)

/-- What may come next. -/
inductive Expected
  | value
  | valueOrClose
  | name (fields : List (String × Json))
  | nameOrClose
  | colon (fields : List (String × Json)) (name : String)
  | after (value : Json)

/-- The number of arrays and objects that may be open at once. -/
def depthLimit : Nat := 127

/-- A value that starts with the token. -/
def startValue (stack : List Frame) : Token → Option (Expected × List Frame)
  | .null => some (.after .null, stack)
  | .bool b => some (.after (.bool b), stack)
  | .number n => some (.after (.number n), stack)
  | .string s => some (.after (.string s), stack)
  | .openArray =>
    if stack.length < depthLimit then some (.valueOrClose, .array [] :: stack) else none
  | .openObject => if stack.length < depthLimit then some (.nameOrClose, stack) else none
  | _ => none

/-- Takes in one token. -/
def take : Expected × List Frame → Token → Option (Expected × List Frame)
  | (.after v, .array items :: stack), .comma => some (.value, .array (v :: items) :: stack)
  | (.after v, .array items :: stack), .closeArray =>
    some (.after (.array (v :: items).reverse), stack)
  | (.after v, .field fields name :: stack), .comma => some (.name ((name, v) :: fields), stack)
  | (.after v, .field fields name :: stack), .closeObject =>
    some (.after (ofFields ((name, v) :: fields).reverse), stack)
  | (.name fields, stack), .string n => some (.colon fields n, stack)
  | (.nameOrClose, stack), .string n => some (.colon [] n, stack)
  | (.nameOrClose, stack), .closeObject => some (.after (.object []), stack)
  | (.colon fields n, stack), .colon => some (.value, .field fields n :: stack)
  | (.valueOrClose, .array _ :: stack), .closeArray => some (.after (.array []), stack)
  | (.value, stack), t => startValue stack t
  | (.valueOrClose, stack), t => startValue stack t
  | _, _ => none

/-- The document that the tokens make up. -/
def assemble (ts : List Token) : Option Json :=
  match ts.foldlM take (.value, []) with
  | some (.after v, []) => some v
  | _ => none

/-- The document that a text denotes. -/
def read? (s : String) : Option Json := (tokens .between s.toList).bind assemble

end TableTail.Json
