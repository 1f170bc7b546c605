/-
# RepoContract.CommandLine.Arguments: reading the command line

A command line is options, then a command, then the options and arguments of that command. The
options for verbosity, silence and colour may stand on either side; where both sides give one,
the inner counts.

An option's value, or a path, waits until the next argument that is understood, or the end, and
is judged only then; an argument that is not understood is refused at once. So of two mistakes
the later may be the one that is reported.
-/
import RepoContract.Contract.Basic
import RepoContract.Path
import RepoContract.Summary.Text

namespace RepoContract.CommandLine

set_option autoImplicit false

inductive Format where
  | text
  | json
  deriving DecidableEq, Repr

instance : Spelled Format where
  members := [.text, .json]
  spelling
    | .text => "text"
    | .json => "json"

/-- The format of a spelling in any letter case. -/
def Format.read (text : String) : Except String Format :=
  match Spelled.ofAnyCase? text with
  | some format => .ok format
  | none => .error ("Unknown output format: " ++ text)

/-- The mode of a spelling in any letter case. -/
def readMode (text : String) : Except String Mode :=
  match Spelled.ofAnyCase? text with
  | some mode => .ok mode
  | none => .error ("Unknown mode: " ++ text)

instance : Spelled ColorChoice where
  members := [.auto, .always, .never]
  spelling
    | .auto => "auto"
    | .always => "always"
    | .never => "never"

structure ValidateArguments where
  path : Path
  format : Format
  excludes : List String
  fix : Bool
  deriving DecidableEq, Repr

structure InitArguments where
  path : Path
  languages : List String
  mode : Option Mode
  yes : Bool
  force : Bool
  deriving DecidableEq, Repr

inductive Command where
  | validate (arguments : ValidateArguments)
  | init (arguments : InitArguments)
  deriving DecidableEq, Repr

structure Invocation where
  verbosity : Nat
  quiet : Bool
  color : ColorChoice
  command : Command
  deriving DecidableEq, Repr

/-- Why a command line is not run. The first two ask for a text and are no mistakes. -/
inductive Refusal where
  | help
  | version
  | helpOnMissing
  | missingCommand
  | unknownCommand
  | unknownArgument
  /-- A value is missing or not among those possible. -/
  | badValue
  /-- A value cannot be read. -/
  | unreadableValue
  | repeated
  /-- A flag is given a value. -/
  | unwantedValue
  deriving DecidableEq, Repr

def Refusal.exitCode : Refusal → Nat
  | .help => 0
  | .version => 0
  | _ => 2

inductive Flag where
  | verbose
  | quiet
  | color
  | help
  | version
  | format
  | exclude
  | fix
  | language
  | mode
  | yes
  | force
  deriving DecidableEq, Repr

def Flag.takesValue : Flag → Bool
  | .color => true
  | .format => true
  | .exclude => true
  | .language => true
  | .mode => true
  | _ => false

/-- The part of a command line at hand. -/
inductive Level where
  | top
  | validate
  | init
  deriving DecidableEq, Repr

namespace Level

/-- The flags of a part, with their long names and letters. -/
def flags : Level → List (Flag × String × Option Char)
  | .top => shared ++ [(.version, "version", some 'V')]
  | .validate => shared ++ [(.format, "format", some 'f'), (.exclude, "exclude", some 'x'),
      (.fix, "fix", none)]
  | .init => shared ++ [(.language, "language", some 'l'), (.mode, "mode", some 'm'),
      (.yes, "yes", some 'y'), (.force, "force", none)]
where
  shared : List (Flag × String × Option Char) :=
    [(.verbose, "verbose", some 'v'), (.quiet, "quiet", some 'q'), (.color, "color", none),
      (.help, "help", some 'h')]

def ofLong? (level : Level) (name : String) : Option Flag :=
  (level.flags.find? fun (_, long, _) => long == name).map (·.1)

def ofLetter? (level : Level) (letter : Char) : Option Flag :=
  (level.flags.find? fun (_, _, short) => short == some letter).map (·.1)

/-- The part that a command's name begins. -/
def ofCommand? : String → Option Level
  | "validate" => some .validate
  | "init" => some .init
  | _ => none

end Level

/-- What one part of a command line has given. -/
structure Given where
  verbosity : Nat := 0
  quiet : Bool := false
  color : Option ColorChoice := none
  format : Option Format := none
  excludes : List String := []
  fix : Bool := false
  languages : List String := []
  mode : Option Mode := none
  yes : Bool := false
  force : Bool := false
  path : Option Path := none
  deriving DecidableEq, Repr

/-- What a value is for. -/
inductive Slot where
  | flag (flag : Flag)
  | path
  deriving DecidableEq, Repr

namespace Given

/-- Whether nothing was given. -/
def isNothing (given : Given) : Bool :=
  given == {}

/-- Set what may be set once. -/
def once {α : Type} (isSet : Bool) (value : Except Refusal α) : Except Refusal α :=
  if isSet then .error .repeated else value

/-- Take a flag without a value. -/
def takeFlag (given : Given) : Flag → Except Refusal Given
  | .verbose => .ok { given with verbosity := min 255 (given.verbosity + 1) }
  | .quiet => once given.quiet (.ok { given with quiet := true })
  | .fix => once given.fix (.ok { given with fix := true })
  | .yes => once given.yes (.ok { given with yes := true })
  | .force => once given.force (.ok { given with force := true })
  | .help => .error .help
  | .version => .error .version
  | _ => .error .badValue

/-- Take a flag or path with its value; none when the value is missing. -/
def take (given : Given) : Slot → Option String → Except Refusal Given
  | .path, some text =>
    if text = "" then .error .badValue else .ok { given with path := some (Path.ofString text) }
  | .path, none => .error .badValue
  | .flag flag, none => given.takeFlag flag
  | .flag flag, some text =>
    match flag with
    | .color => once given.color.isSome
        (match Spelled.ofSpelling? text with
        | some color => .ok { given with color := some color }
        | none => .error .badValue)
    | .format => once given.format.isSome
        (match Format.read text with
        | .ok format => .ok { given with format := some format }
        | .error _ => .error .unreadableValue)
    | .mode => once given.mode.isSome
        (match readMode text with
        | .ok mode => .ok { given with mode := some mode }
        | .error _ => .error .unreadableValue)
    | .exclude => .ok { given with excludes := given.excludes ++ [text] }
    | .language => .ok { given with languages := given.languages ++ [text] }
    | _ => .error .unwantedValue

end Given

/-- Reading a part: what has been taken, and what waits to be taken. -/
structure State where
  given : Given := {}
  /-- What waits, with its value once that has come. -/
  waiting : Option (Slot × Option String) := none
  hasPath : Bool := false
  /-- Whether two dashes have come, after which nothing is an option. -/
  plain : Bool := false

namespace State

/-- Whether the next argument is the value of an option. -/
def awaitsValue (state : State) : Bool :=
  state.waiting.any (·.2.isNone)

/-- Take what waits. -/
def settle (state : State) : Except Refusal Given :=
  match state.waiting with
  | none => .ok state.given
  | some (slot, value) => state.given.take slot value

/-- Take what waits, and then a flag or a value that came with it. -/
def takeNow (state : State) (flag : Flag) (value : Option String) : Except Refusal State := do
  let given ← state.settle
  let given ← given.take (.flag flag) value
  return { state with given, waiting := none }

/-- Take what waits, and let another thing wait. -/
def wait (state : State) (slot : Slot) (value : Option String) : Except Refusal State := do
  let given ← state.settle
  return { state with given, waiting := some (slot, value) }

/-- Read a long option, given what follows its dashes. -/
def readLong (level : Level) (state : State) (text : List Char) : Except Refusal State :=
  let name := text.takeWhile (· ≠ '=')
  let value := (text.dropWhile (· ≠ '=')).tail?.map String.ofList
  match level.ofLong? (String.ofList name) with
  | none => .error .unknownArgument
  | some flag =>
    if flag.takesValue then
      if value.isSome then state.takeNow flag value else state.wait (.flag flag) none
    else if value.isSome then .error .unwantedValue
    else state.takeNow flag none

/-- Read option letters; the first that takes a value takes the rest as its value. -/
def readLetters (level : Level) (state : State) : List Char → Except Refusal State
  | [] => .ok state
  | letter :: rest =>
    match level.ofLetter? letter with
    | none => .error .unknownArgument
    | some flag =>
      if flag.takesValue then
        match rest with
        | [] => state.wait (.flag flag) none
        | '=' :: value => state.takeNow flag (some (String.ofList value))
        | value => state.takeNow flag (some (String.ofList value))
      else do
        let state ← state.takeNow flag none
        readLetters level state rest

/-- Read an argument as an option or the value of one; none when it is neither. -/
def readOption? (level : Level) (state : State) (argument : String) :
    Except Refusal (Option State) :=
  if state.plain then .ok none
  else
    match argument.toList with
    | ['-', '-'] => .ok (some { state with plain := true })
    | '-' :: '-' :: text => (state.readLong level text).map some
    | '-' :: letter :: letters => (state.readLetters level (letter :: letters)).map some
    | _ =>
      match state.waiting with
      | some (slot, none) => .ok (some { state with waiting := some (slot, some argument) })
      | _ => .ok none

end State

/-- Read the arguments of a command. -/
def readCommand (level : Level) : State → List String → Except Refusal Given
  | state, [] => state.settle
  | state, argument :: rest => do
    match ← state.readOption? level argument with
    | some state => readCommand level state rest
    | none =>
      if state.hasPath then throw .unknownArgument
      let state ← state.wait .path (some argument)
      readCommand level { state with hasPath := true } rest

/-- Why a request for help ends the reading. -/
def helpRefusal : List String → Refusal
  | [] => .help
  | ["help"] => .help
  | [name] => if (Level.ofCommand? name).isSome then .help else .unknownCommand
  | _ => .unknownCommand

/-- The command of a part. -/
def commandOf (level : Level) (given : Given) : Command :=
  let path := given.path.getD (Path.ofString ".")
  match level with
  | .init => .init ⟨path, given.languages, given.mode, given.yes, given.force⟩
  | _ => .validate ⟨path, given.format.getD .text, given.excludes, given.fix⟩

/-- The invocation of what was given before and after the command's name. -/
def invocationOf (outer : Given) (level : Level) (inner : Given) : Invocation :=
  { verbosity := if inner.verbosity = 0 then outer.verbosity else inner.verbosity
    quiet := inner.quiet || outer.quiet
    color := (inner.color <|> outer.color).getD .auto
    command := commandOf level inner }

/-- Read a command line up to its command, and then the command. -/
def readTop : State → List String → Except Refusal Invocation
  | state, [] => do
    let given ← state.settle
    throw (if given.isNothing then .helpOnMissing else .missingCommand)
  | state, argument :: rest =>
    let isCommand := argument = "help" || (Level.ofCommand? argument).isSome
    if isCommand && !state.plain && !state.awaitsValue then
      match Level.ofCommand? argument with
      | none => .error (helpRefusal rest)
      | some level => do
        let inner ← readCommand level {} rest
        let outer ← state.settle
        return invocationOf outer level inner
    else do
      match ← state.readOption? .top argument with
      | some state => readTop state rest
      | none => throw (if state.plain && isCommand then .unknownArgument else .unknownCommand)

/-- Read a command line, without the name of the program. -/
def read (arguments : List String) : Except Refusal Invocation :=
  readTop {} arguments

end RepoContract.CommandLine
