import TableTail.Url.Host

/-!
# Addresses

Absolute addresses, read as browsers read them: the scheme in lower case, default ports dropped,
dots in paths resolved, and what may not stand as it is escaped. A text that is no absolute address
has no reading.
-/

namespace TableTail

namespace Url

/-- The path of an address: segments, or a text that names no place in a hierarchy. -/
inductive Path
  | segments (parts : List (List Char))
  | plain (text : List Char)
  deriving DecidableEq, Repr

/-- How the scheme of an address is read. -/
inductive SchemeKind
  | web
  | file
  | other
  deriving DecidableEq, Repr

/-- The kind of a scheme. -/
def schemeKind (scheme : String) : SchemeKind :=
  if scheme = "http" ∨ scheme = "https" ∨ scheme = "ws" ∨ scheme = "wss" ∨ scheme = "ftp" then .web
  else if scheme = "file" then .file
  else .other

/-- The port that a scheme stands for. -/
def defaultPort (scheme : String) : Option Nat :=
  if scheme = "http" ∨ scheme = "ws" then some 80
  else if scheme = "https" ∨ scheme = "wss" then some 443
  else if scheme = "ftp" then some 21
  else none

end Url

/-- An absolute address. -/
structure Url where
  scheme : String
  user : List Char
  password : Option (List Char)
  host : Option Url.Host
  port : Option Nat
  path : Url.Path
  query : Option (List Char)
  fragment : Option (List Char)
  deriving DecidableEq, Repr

namespace Url

/-- Scheme and rest: letters, digits and `+ - .` behind a letter, up to a colon. -/
def readScheme (s : List Char) : Option (String × List Char) :=
  match s with
  | [] => none
  | c :: _ =>
    let name := s.takeWhile fun c => c.isAlphanum || c = '+' || c = '-' || c = '.'
    match s.drop name.length with
    | ':' :: rest =>
      if c.isAlpha then some (String.ofList (name.map Char.toLower), rest) else none
    | _ => none

/-- Whether the character ends user, host and port. -/
def endsAuthority (kind : SchemeKind) (c : Char) : Bool :=
  c = '/' || c = '?' || c = '#' || (kind ≠ .other && c = '\\')

/-- A list split at the last occurrence of a character. -/
def splitLast (c : Char) (s : List Char) : Option (List Char × List Char) :=
  let back := s.reverse.takeWhile (· ≠ c)
  match s.reverse.drop back.length with
  | [] => none
  | _ :: front => some (front.reverse, back.reverse)

/-- User name and password, escaped; an empty password is none. -/
def readUser (s : List Char) : List Char × Option (List Char) :=
  let name := s.takeWhile (· ≠ ':')
  let secret := s.drop (name.length + 1)
  (escapeAll escapedInUser name,
    if secret.isEmpty then none else some (escapeAll escapedInUser secret))

/-- The characters of a host: up to a colon outside brackets. -/
def spanHost : Bool → List Char → List Char × List Char
  | _, [] => ([], [])
  | bracketed, c :: rest =>
    if c = ':' ∧ !bracketed then ([], c :: rest)
    else
      let inside := if c = '[' then true else if c = ']' then false else bracketed
      let (host, tail) := spanHost inside rest
      (c :: host, tail)

/-- The port behind a host: nothing when it is empty or the scheme's own. -/
def readPort (scheme : String) (s : List Char) : Option (Option Nat × List Char) :=
  match s with
  | [] => some (none, [])
  | ':' :: rest =>
    let (ds, tail) := Text.spanDigits rest
    let port := Text.ofDigits ds
    if 65535 < port then none
    else
      let stop := match tail with
        | [] => true
        | c :: _ => c = '\\'
      if stop then
        some ((if ds.isEmpty ∨ defaultPort scheme = some port then none else some port), tail)
      else none
  | s => some (none, s)

/-- Whether a segment stands for the directory itself. -/
def isSingleDot (s : List Char) : Bool :=
  let t := String.ofList (s.map Char.toLower)
  t = "." || t = "%2e"

/-- Whether a segment stands for the directory above. -/
def isDoubleDot (s : List Char) : Bool :=
  let t := String.ofList (s.map Char.toLower)
  t = ".." || t = ".%2e" || t = "%2e." || t = "%2e%2e"

/-- The segments with one more; `last` when no slash follows it. -/
def addSegment (last : Bool) (segments : List (List Char)) (s : List Char) : List (List Char) :=
  if isDoubleDot s then segments.dropLast ++ (if last then [[]] else [])
  else if isSingleDot s then segments ++ (if last then [[]] else [])
  else segments ++ [s]

/-- The segments of parts that were between slashes, with dots resolved. -/
def resolve : List (List Char) → List (List Char) → List (List Char)
  | segments, [] => segments
  | segments, [s] => addSegment true segments s
  | segments, s :: rest => resolve (addSegment false segments s) rest

/-- The parts of a path between its slashes, escaped. -/
def splitPath (kind : SchemeKind) (s : List Char) : List (List Char) :=
  let s := if kind = .other then s else s.map fun c => if c = '\\' then '/' else c
  (s.splitOn '/').map (escapeAll escapedInPath)

/-- The path behind an authority. -/
def readPath (kind : SchemeKind) (s : List Char) : Path :=
  match s with
  | [] => .segments (if kind = .other then [] else [[]])
  | c :: rest =>
    if c = '/' ∨ (kind ≠ .other ∧ c = '\\') then .segments (resolve [] (splitPath kind rest))
    else .segments (resolve [] (splitPath kind s))

/-- Path, query and fragment taken apart. -/
def splitTail (s : List Char) : List Char × Option (List Char) × Option (List Char) :=
  let body := s.takeWhile (· ≠ '#')
  let fragment := match s.drop body.length with
    | [] => none
    | _ :: rest => some rest
  let path := body.takeWhile (· ≠ '?')
  let query := match body.drop path.length with
    | [] => none
    | _ :: rest => some rest
  (path, query, fragment)

/-- The address whose scheme, authority and path were read. -/
def complete (scheme : String) (user : List Char) (password : Option (List Char))
    (host : Option Host) (port : Option Nat) (path : Path)
    (query fragment : Option (List Char)) : Url :=
  ⟨scheme, user, password, host, port, path,
    query.map (escapeAll (escapedInQuery (schemeKind scheme ≠ .other))),
    fragment.map (escapeAll escapedInFragment)⟩

/-- The address from behind the two slashes on. -/
def readAuthority (scheme : String) (kind : SchemeKind) (s : List Char) : Option Url := do
  let authority := s.takeWhile fun c => !endsAuthority kind c
  let rest := s.drop authority.length
  let ((user, password), place) ← match splitLast '@' authority with
    | none => some ((([] : List Char), none), authority)
    | some (front, place) =>
      if front.isEmpty ∧ place.isEmpty ∧ !rest.isEmpty then none else some (readUser front, place)
  let (host, tail) := spanHost false place
  let named := !user.isEmpty || password.isSome
  if host.isEmpty ∧ (kind ≠ .other ∨ named ∨ !tail.isEmpty) then none
  else
    let host ← if kind = .other then readOtherHost host else readWebHost host
    let (port, tail) ← readPort scheme tail
    let (path, query, fragment) := splitTail (tail ++ rest)
    some (complete scheme user password (some host) port (readPath kind path) query fragment)

/-- The address of a file from behind its scheme on. Leading empty segments are dropped. -/
def readFile (s : List Char) : Option Url := do
  let slash := fun (c : Char) => c = '/' || c = '\\'
  let (host, rest) ← match s with
    | a :: b :: rest =>
      if slash a ∧ slash b then
        let host := rest.takeWhile fun c => !endsAuthority .file c
        if host.isEmpty then some (Host.name [], rest)
        else do
          let h ← readWebHost host
          let h := if h = .name "localhost".toList then .name [] else h
          some (h, rest.drop host.length)
      else some (.name [], s)
    | s => some (.name [], s)
  let (path, query, fragment) := splitTail rest
  let parts := match readPath .file path with
    | .segments parts => parts
    | .plain t => [t]
  let front := parts.dropLast.dropWhile (·.isEmpty)
  let last := parts.drop (parts.length - 1)
  some (complete "file" [] none (some host) none (.segments (front ++ last)) query fragment)

/-- The address of a text, its scheme decided. -/
def readKind (scheme : String) (rest : List Char) : Option Url :=
  match schemeKind scheme with
  | .web => readAuthority scheme .web (rest.dropWhile fun c => c = '/' || c = '\\')
  | .file => readFile rest
  | .other =>
    match rest with
    | '/' :: '/' :: rest => readAuthority scheme .other rest
    | '/' :: _ =>
      let (path, query, fragment) := splitTail rest
      some (complete scheme [] none none none (readPath .other path) query fragment)
    | rest =>
      let (path, query, fragment) := splitTail rest
      some (complete scheme [] none none none (.plain (escapeAll escapedAlways path)) query fragment)

/-- The absolute address that a text denotes. Controls and blanks around it and line breaks and
tabs within it do not count. -/
def read? (text : String) : Option Url :=
  let edge := fun (c : Char) => c.toNat ≤ 0x20
  let s := ((text.toList.dropWhile edge).reverse.dropWhile edge).reverse
  let s := s.filter fun c => !(c = '\t' || c = '\n' || c = '\r')
  (readScheme s).bind fun (scheme, rest) => readKind scheme rest

/-- The text of a path. -/
def Path.text : Path → String
  | .segments parts => String.ofList (parts.flatMap fun p => '/' :: p)
  | .plain t => String.ofList t

/-- User name and password in front of a host. -/
def userText (u : Url) : String :=
  if u.user.isEmpty ∧ u.password.isNone then ""
  else
    String.ofList u.user ++
      (match u.password with
        | none => ""
        | some p => ":" ++ String.ofList p) ++ "@"

/-- The text of an address. -/
def text (u : Url) : String :=
  u.scheme ++ ":" ++
    (match u.host with
      | some h =>
        "//" ++ u.userText ++ h.text ++
          (match u.port with
            | none => ""
            | some p => ":" ++ Text.natText p)
      | none =>
        match u.path with
        | .segments ([] :: _ :: _) => "/."
        | _ => "") ++
    u.path.text ++
    (match u.query with
      | none => ""
      | some q => "?" ++ String.ofList q) ++
    (match u.fragment with
      | none => ""
      | some f => "#" ++ String.ofList f)

/-- A connection address as it may be shown: its password is replaced by three stars. A text that
is no address is shown as it is. -/
def redact (text : String) : String :=
  match read? text with
  | some u => Url.text (if u.password.isSome then
      ⟨u.scheme, u.user, some ['*', '*', '*'], u.host, u.port, u.path, u.query, u.fragment⟩ else u)
  | none => text

end Url

end TableTail
