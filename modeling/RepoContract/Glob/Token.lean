/-
# RepoContract.Glob.Token: the parts of a glob

A glob is a list of tokens. `Glob.parse` reads the text of one:

* `?` is one byte, `*` any run of bytes, slashes included;
* `[a-z]` is one byte out of a class, `[!a-z]` and `[^a-z]` one byte outside it;
* `{a,b}` is either of its branches, and branches nest;
* `**/` at the start of a glob or branch, `/**/` inside it and `/**` at its end stand for
  directories, two stars anywhere else for two runs;
* a backslash makes the next character stand for itself.
-/
import RepoContract.Text.Utf8

namespace RepoContract.Glob

set_option autoImplicit false

inductive Token where
  | char (c : Char)
  | anyByte
  | anyRun
  /-- Directories in front, or nothing. -/
  | leadingDirs
  /-- A slash and anything after it. -/
  | trailingDirs
  /-- A slash, or directories between two. -/
  | innerDirs
  | oneOf (negated : Bool) (ranges : List (Char × Char))
  | branches (alternatives : List (List Token))
  deriving Repr, Inhabited

/-- Why a text is no glob. -/
inductive Problem where
  | unclosedClass
  | invalidRange (low high : Char)
  | unopenedBranches
  | unclosedBranches
  | danglingEscape
  deriving DecidableEq, Repr

def Problem.message : Problem → String
  | .unclosedClass => "unclosed character class; missing ']'"
  | .invalidRange low high =>
    "invalid range; '" ++ String.ofList [low] ++ "' > '" ++ String.ofList [high] ++ "'"
  | .unopenedBranches =>
    "unopened alternate group; missing '\x7b' (maybe escape '\x7d' with '[\x7d]'?)"
  | .unclosedBranches =>
    "unclosed alternate group; missing '\x7d' (maybe escape '\x7b' with '[\x7b]'?)"
  | .danglingEscape => "dangling '\\'"

/-- Branches being read: the tokens read so far of the branch at hand in reverse, and the
finished branches in reverse. -/
structure Level where
  branch : List Token
  finished : List (List Token)

/-- What has been read: the innermost open level, and the levels around it. -/
structure State where
  level : Level
  outer : List Level

def State.empty : State := ⟨⟨[], []⟩, []⟩

def State.push (state : State) (token : Token) : State :=
  { state with level := { state.level with branch := token :: state.level.branch } }

/-- Put a token in the place of the last one. -/
def State.replaceLast (state : State) (token : Token) : State :=
  { state with level := { state.level with branch := token :: state.level.branch.drop 1 } }

def State.nested (state : State) : Bool :=
  !state.outer.isEmpty

def State.open (state : State) : State :=
  ⟨⟨[], []⟩, state.level :: state.outer⟩

def State.comma (state : State) : State :=
  if state.nested then
    { state with level := ⟨[], state.level.branch.reverse :: state.level.finished⟩ }
  else state.push (.char ',')

def State.close (state : State) : Except Problem State :=
  match state.outer with
  | [] => .error .unopenedBranches
  | level :: outer =>
    let alternatives := (state.level.branch.reverse :: state.level.finished).reverse
    .ok (State.push ⟨level, outer⟩ (.branches alternatives))

def State.finish (state : State) : Except Problem (List Token) :=
  if state.nested then .error .unclosedBranches else .ok state.level.branch.reverse

/-- Close a range whose first character is the last one read. -/
def closeRange (high : Char) : List (Char × Char) → Except Problem (List (Char × Char))
  | [] => .ok [(high, high)]
  | (low, _) :: rest =>
    if high < low then .error (.invalidRange low high) else .ok ((low, high) :: rest)

/-- Read a class after its sign. `first` holds before the first character, `isOpen` after a dash
that may begin a range; the ranges are in reverse. -/
def classRanges (first isOpen : Bool) (ranges : List (Char × Char)) :
    List Char → Except Problem (List (Char × Char) × List Char)
  | [] => .error .unclosedClass
  | c :: rest =>
    if c = ']' && !first then
      .ok ((if isOpen then ('-', '-') :: ranges else ranges).reverse, rest)
    else if c = '-' && !first && !isOpen then classRanges false true ranges rest
    else if isOpen then do classRanges false false (← closeRange c ranges) rest
    else classRanges false false ((c, c) :: ranges) rest

/-- The token that two stars become behind a slash: a suffix at the end of the branch, else
directories; it takes the place of the slash, and of nothing where directories went before. -/
def State.pushDirs (state : State) (atEnd : Bool) : State :=
  match state.level.branch with
  | .leadingDirs :: _ => state
  | .trailingDirs :: _ => state
  | _ => state.replaceLast (if atEnd then .trailingDirs else .innerDirs)

/-- Two stars, given the character before them and the text after them; also whether the slash
after the stars is taken with them. -/
def State.twoStars (state : State) (before : Option Char) (rest : List Char) : State × Bool :=
  let runs := (state.push .anyRun).push .anyRun
  if state.level.branch.isEmpty then
    match rest with
    | [] => (state.push .leadingDirs, false)
    | '/' :: _ => (state.push .leadingDirs, true)
    | _ => (runs, false)
  else if before = some '/' || (state.nested && (before = some ',' || before = some '{')) then
    match rest with
    | [] => (state.pushDirs true, false)
    | '/' :: _ => (state.pushDirs false, true)
    | c :: _ =>
      if state.nested && (c = ',' || c = '}') then (state.pushDirs true, false)
      else (runs, false)
  else (runs, false)

/-- Read a glob from a state; `before` is the character read last. -/
def read : Nat → State → Option Char → List Char → Except Problem (List Token)
  | 0, state, _, _ => state.finish
  | _ + 1, state, _, [] => state.finish
  | fuel + 1, state, before, c :: rest =>
    match c with
    | '?' => read fuel (state.push .anyByte) (some c) rest
    | '*' =>
      match rest with
      | '*' :: rest =>
        match state.twoStars before rest with
        | (state, true) => read fuel state (some '/') (rest.drop 1)
        | (state, false) => read fuel state (some '*') rest
      | _ => read fuel (state.push .anyRun) (some c) rest
    | '[' => do
      let (negated, inside) :=
        match rest with
        | '!' :: inside => (true, inside)
        | '^' :: inside => (true, inside)
        | _ => (false, rest)
      let (ranges, rest) ← classRanges true false [] inside
      read fuel (state.push (.oneOf negated ranges)) (some ']') rest
    | '{' => read fuel state.open (some c) rest
    | '}' => do read fuel (← state.close) (some c) rest
    | ',' => read fuel state.comma (some c) rest
    | '\\' =>
      match rest with
      | [] => .error .danglingEscape
      | d :: rest => read fuel (state.push (.char d)) (some d) rest
    | _ => read fuel (state.push (.char c)) (some c) rest

/-- The tokens of a glob's text. -/
def parse (text : String) : Except Problem (List Token) :=
  read (text.toList.length + 1) .empty none text.toList

end RepoContract.Glob
