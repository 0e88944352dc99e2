/-!
# Arguments

The command line: a log level, one of three commands, and for each of them the path of a
configuration. An option takes the next argument as its value, or what follows its `=`. The first
fault from the left decides the error, but a value given as an argument of its own is looked at only
when the next option begins or the arguments end.
-/

namespace TableTail.Command

/-- What the program can be asked to do. -/
inductive Verb
  | run
  | check
  | positions
  deriving DecidableEq, Repr

/-- The name of a command. -/
def Verb.name : Verb → String
  | run => "run"
  | check => "check"
  | positions => "positions"

/-- The command with a name. -/
def Verb.ofName? (s : String) : Option Verb := [run, check, positions].find? fun v => v.name = s

/-- Why arguments are no invocation, or what is to be shown instead. -/
inductive ArgumentError
  | missingOption
  | missingCommand
  | nothingGiven
  | unknownCommand
  | unknownArgument
  | badValue
  | unwantedValue
  | repeatedOption
  | help
  | version
  deriving DecidableEq, Repr

/-- What the arguments ask for. -/
structure Invocation where
  verb : Verb
  config : String
  log : String
  deriving DecidableEq, Repr

/-- The options that take a value. -/
inductive OptionName
  | config
  | log
  deriving DecidableEq, Repr

/-- The values of options. -/
structure Given where
  config : Option String
  log : Option String
  deriving DecidableEq, Repr

/-- What was read of a command line so far: the values that count, and an option whose value is
still to be looked at, or to come. -/
structure Reading where
  given : Given
  pending : Option (OptionName × Option String)

namespace Reading

/-- Nothing read. -/
def start : Reading := ⟨⟨none, none⟩, none⟩

/-- The values with one more. An option is given once, and a path is not empty. -/
def store (g : Given) (name : OptionName) (value : String) : Except ArgumentError Given :=
  match name with
  | .config =>
    if g.config.isSome then .error .repeatedOption
    else if value = "" then .error .badValue
    else .ok { g with config := some value }
  | .log => if g.log.isSome then .error .repeatedOption else .ok { g with log := some value }

/-- Looks at the value of the pending option. -/
def settle (p : Reading) : Except ArgumentError Given :=
  match p.pending with
  | none => .ok p.given
  | some (_, none) => .error .badValue
  | some (name, some value) => store p.given name value

end Reading

/-- An argument that begins with dashes. -/
inductive Dashed
  | escape
  | long (name : String) (value : Option String)
  | short (letters : List Char)

/-- An argument as one with dashes; a single dash is none. -/
def dashed? (s : String) : Option Dashed :=
  match s.toList with
  | ['-', '-'] => some .escape
  | '-' :: '-' :: rest =>
    let name := String.ofList (rest.takeWhile (· ≠ '='))
    match rest.dropWhile (· ≠ '=') with
    | [] => some (.long name none)
    | _ :: value => some (.long name (some (String.ofList value)))
  | '-' :: c :: rest => some (.short (c :: rest))
  | _ => none

/-- An argument that only shows something, once what is pending is in order. -/
def shown (p : Reading) (what : ArgumentError) : ArgumentError :=
  match p.settle with
  | .error e => e
  | .ok _ => what

/-- Begins an option, with its value if that is attached. -/
def beginOption (p : Reading) (name : OptionName) (value : Option String) :
    Except ArgumentError Reading := do
  let given ← p.settle
  match value with
  | some v => do
    let given ← Reading.store given name v
    return ⟨given, none⟩
  | none => return ⟨given, some (name, none)⟩

/-- Takes an argument with dashes; `top` tells that no command has been named yet. -/
def takeDashed (top : Bool) (p : Reading) : Dashed → Except ArgumentError Reading
  | .escape => .ok p
  | .long "log" value => beginOption p .log value
  | .long "help" none => .error (shown p .help)
  | .long "help" (some _) => .error (shown p .unwantedValue)
  | .long "config" value => if top then .error .unknownArgument else beginOption p .config value
  | .long "version" value =>
    if top then .error (shown p (if value.isSome then .unwantedValue else .version))
    else .error .unknownArgument
  | .long _ _ => .error .unknownArgument
  | .short letters =>
    match letters with
    | 'h' :: _ => .error (shown p .help)
    | 'V' :: _ => if top then .error (shown p .version) else .error .unknownArgument
    | _ => .error .unknownArgument

/-- The values of the options behind a command. -/
def readOptions (p : Reading) : List String → Except ArgumentError Given
  | [] => p.settle
  | s :: rest =>
    match dashed? s with
    | some .escape => if rest.isEmpty then p.settle else .error .unknownArgument
    | some d =>
      match takeDashed false p d with
      | .error e => .error e
      | .ok p => readOptions p rest
    | none =>
      match p.pending with
      | some (name, none) => readOptions ⟨p.given, some (name, some s)⟩ rest
      | _ => .error .unknownArgument

/-- Shows the help of a command, or of all of them. -/
def helpOn : List String → ArgumentError
  | [] => .help
  | ["help"] => .help
  | s :: rest =>
    match Verb.ofName? s with
    | some _ => if rest.isEmpty then .help else .unknownCommand
    | none => .unknownCommand

/-- The path of the configuration: the one that is given, or else one from the environment. -/
def configPath (inherited : Option String) (g : Given) : Except ArgumentError String :=
  match g.config, inherited with
  | some path, _ => .ok path
  | none, some path => if path = "" then .error .badValue else .ok path
  | none, none => .error .missingOption

/-- The invocation of a command with the options behind it; a log level there wins over one in
front of it. -/
def invoke (inherited : Option String) (p : Reading) (verb : Verb) (rest : List String) :
    Except ArgumentError Invocation := do
  let given ← readOptions Reading.start rest
  let config ← configPath inherited given
  let top ← p.settle
  return ⟨verb, config, (given.log <|> top.log).getD "info"⟩

/-- What arguments without a command are in want of. -/
def withoutCommand (p : Reading) : ArgumentError :=
  match p.settle with
  | .error e => e
  | .ok given => if given.log.isSome then .missingCommand else .nothingGiven

/-- Reads the arguments in front of a command, and the command. -/
def readCommand (inherited : Option String) (p : Reading) :
    List String → Except ArgumentError Invocation
  | [] => .error (withoutCommand p)
  | s :: rest =>
    match dashed? s with
    | some .escape =>
      match rest with
      | [] => .error (withoutCommand p)
      | t :: _ =>
        if (Verb.ofName? t).isSome ∨ t = "help" then .error .unknownArgument
        else .error .unknownCommand
    | some d =>
      match takeDashed true p d with
      | .error e => .error e
      | .ok p => readCommand inherited p rest
    | none =>
      match p.pending with
      | some (name, none) => readCommand inherited ⟨p.given, some (name, some s)⟩ rest
      | _ =>
        match Verb.ofName? s with
        | some verb => invoke inherited p verb rest
        | none => if s = "help" then .error (helpOn rest) else .error .unknownCommand

/-- The invocation that arguments stand for; the first of them is the program's name. The
environment may hold the path of a configuration. -/
def readArguments (inherited : Option String) (args : List String) :
    Except ArgumentError Invocation :=
  readCommand inherited Reading.start args.tail

end TableTail.Command
