/-
# RepoContract.Pattern.Reader: patterns from text

`Pattern.read` reads the usual notation: characters, `.`, classes in brackets, the escapes `\s`,
`\w`, `\d`, `\b` and their complements, groups, `|`, `*`, `+`, `?`, `^` and `$`. Counted
repetition, flags, named groups and classes within classes are refused. A refusal points at the
part of the text that is to blame.

All patterns that are there from the start are in this notation. Patterns of languages that are
added may be in a wider one, so what reads them takes a compiler as a parameter, of which
`Pattern.compile` is the one at hand.
-/
import RepoContract.Pattern.Expr

namespace RepoContract.Pattern

set_option autoImplicit false

inductive Problem where
  | unclosedGroup
  | unopenedGroup
  | nothingToRepeat
  | unclosedClass
  | unknownEscape
  | unfinishedEscape
  | invalidRange
  | unknownFlag
  | unsupported
  deriving DecidableEq, Repr

def Problem.message : Problem → String
  | .unclosedGroup => "unclosed group"
  | .unopenedGroup => "unopened group"
  | .nothingToRepeat => "repetition operator missing expression"
  | .unclosedClass => "unclosed character class"
  | .unknownEscape => "unrecognized escape sequence"
  | .unfinishedEscape => "incomplete escape sequence, reached end of pattern prematurely"
  | .invalidRange => "invalid character class range, the start must be <= the end"
  | .unknownFlag => "unrecognized flag"
  | .unsupported => "unsupported construct"

/-- A problem, the text from the part to blame on, and the length of that part. -/
structure Refusal where
  problem : Problem
  unread : List Char
  width : Nat
  deriving DecidableEq, Repr

/-- The message of a refusal: the pattern with a mark under the part to blame. -/
def Refusal.message (refusal : Refusal) (text : List Char) : String :=
  let indent := List.replicate (text.length - refusal.unread.length) ' '
  let mark := List.replicate refusal.width '^'
  "regex parse error:\n    " ++ String.ofList text ++ "\n    " ++ String.ofList (indent ++ mark)
    ++ "\nerror: " ++ refusal.problem.message

/-- Refuse for a number of characters. -/
def refuse {α : Type} (problem : Problem) (unread : List Char) (width : Nat) :
    Except Refusal α :=
  .error ⟨problem, unread, width⟩

/-- What an escape stands for in a class and outside. -/
inductive Escape where
  | member (member : Member)
  | anchor (expr : Expr)

/-- The escape of a letter or sign. -/
def Escape.ofChar? : Char → Option Escape
  | 's' => some (.member ⟨.blank, false⟩)
  | 'S' => some (.member ⟨.blank, true⟩)
  | 'w' => some (.member ⟨.word, false⟩)
  | 'W' => some (.member ⟨.word, true⟩)
  | 'd' => some (.member ⟨.digit, false⟩)
  | 'D' => some (.member ⟨.digit, true⟩)
  | 'n' => some (.member ⟨.char '\n', false⟩)
  | 'r' => some (.member ⟨.char '\r', false⟩)
  | 't' => some (.member ⟨.char '\t', false⟩)
  | 'b' => some (.anchor (.edge false))
  | 'B' => some (.anchor (.edge true))
  | 'A' => some (.anchor .start)
  | 'z' => some (.anchor .stop)
  | c =>
    if 0x20 ≤ c.toNat && c.toNat < 0x7F && !c.isAlphanum && c ≠ '<' && c ≠ '>' then
      some (.member ⟨.char c, false⟩)
    else none

/-- Read an escape; the text starts with its backslash. -/
def readEscape (text : List Char) : Except Refusal (Escape × List Char) :=
  match text with
  | _ :: c :: rest =>
    match Escape.ofChar? c with
    | some escape => .ok (escape, rest)
    | none => refuse .unknownEscape text 2
  | _ => refuse .unfinishedEscape text 1

/-- Read one member of a class, without a range. -/
def readMember (text : List Char) : Except Refusal (Member × List Char) :=
  match text with
  | '\\' :: _ => do
    match ← readEscape text with
    | (.member member, rest) => return (member, rest)
    | (.anchor _, _) => refuse .unknownEscape text 2
  | '[' :: _ => refuse .unsupported text 1
  | c :: rest => .ok (⟨.char c, false⟩, rest)
  | [] => refuse .unclosedClass text 0

/-- Read the members of a class up to its bracket; `whole` is the text from the class on. -/
def readMembers : Nat → List Char → Bool → List Char → Except Refusal (List Member × List Char)
  | 0, whole, _, _ => refuse .unclosedClass whole 1
  | _ + 1, whole, _, [] => refuse .unclosedClass whole 1
  | fuel + 1, whole, first, text => do
    if text.head? = some ']' && !first then return ([], text.drop 1)
    let (member, rest) ← readMember text
    match member, rest with
    | ⟨.char low, false⟩, '-' :: c :: more =>
      if c = ']' then
        let (members, rest) ← readMembers fuel whole false rest
        return (member :: members, rest)
      else
        match ← readMember (c :: more) with
        | (⟨.char high, false⟩, after) =>
          if high < low then refuse .invalidRange text (text.length - after.length)
          else
            let (members, rest) ← readMembers fuel whole false after
            return (⟨.range low high, false⟩ :: members, rest)
        | (_, after) => refuse .invalidRange text (text.length - after.length)
    | _, _ =>
      let (members, rest) ← readMembers fuel whole false rest
      return (member :: members, rest)

/-- Read a class; the text starts with its bracket. -/
def readClass (text : List Char) : Except Refusal (Expr × List Char) := do
  let inside := text.drop 1
  let negated := inside.head? = some '^'
  let (members, rest) ←
    readMembers (text.length + 1) text true (if negated then inside.drop 1 else inside)
  return (.one ⟨members, negated⟩, rest)

/-- Apply the repetition signs in front of a text. -/
def repeatAtom : Expr → List Char → Expr × List Char
  | atom, '*' :: '?' :: rest => repeatAtom atom.repeated rest
  | atom, '*' :: rest => repeatAtom atom.repeated rest
  | atom, '+' :: '?' :: rest => repeatAtom (.oneOrMore atom) rest
  | atom, '+' :: rest => repeatAtom (.oneOrMore atom) rest
  | atom, '?' :: '?' :: rest => repeatAtom (.maybe atom) rest
  | atom, '?' :: rest => repeatAtom (.maybe atom) rest
  | atom, text => (atom, text)

mutual

/-- Read alternatives up to the end of the text or of the group. -/
def readChoice : Nat → List Char → Except Refusal (Expr × List Char)
  | 0, text => refuse .unsupported text 1
  | fuel + 1, text => do
    let (first, rest) ← readRow fuel text
    match rest with
    | '|' :: rest =>
      let (second, rest) ← readChoice fuel rest
      return (.choice first second, rest)
    | rest => return (first, rest)

/-- Read atoms up to the end of the alternative. -/
def readRow : Nat → List Char → Except Refusal (Expr × List Char)
  | 0, text => refuse .unsupported text 1
  | fuel + 1, text =>
    match text with
    | [] => .ok (.empty, [])
    | '|' :: _ => .ok (.empty, text)
    | ')' :: _ => .ok (.empty, text)
    | _ => do
      let (atom, rest) ← readAtom fuel text
      let (atom, rest) := repeatAtom atom rest
      if rest.head? = some '{' then refuse .unsupported rest 1
      let (more, rest) ← readRow fuel rest
      return (if more = .empty then atom else .seq atom more, rest)

/-- Read one character, class, anchor or group. -/
def readAtom : Nat → List Char → Except Refusal (Expr × List Char)
  | 0, text => refuse .unsupported text 1
  | fuel + 1, text =>
    match text with
    | [] => .ok (.empty, [])
    | '\\' :: _ => do
      match ← readEscape text with
      | (.member member, rest) => return (.one ⟨[member], false⟩, rest)
      | (.anchor expr, rest) => return (expr, rest)
    | '[' :: _ => readClass text
    | '.' :: rest => .ok (.one ⟨[⟨.visible, false⟩], false⟩, rest)
    | '^' :: rest => .ok (.start, rest)
    | '$' :: rest => .ok (.stop, rest)
    | '*' :: _ => refuse .nothingToRepeat text 1
    | '+' :: _ => refuse .nothingToRepeat text 1
    | '?' :: _ => refuse .nothingToRepeat text 1
    | '{' :: _ => refuse .nothingToRepeat text 1
    | '(' :: '?' :: ':' :: rest => readGroup fuel text rest
    | '(' :: '?' :: rest => refuse .unknownFlag rest 1
    | '(' :: rest => readGroup fuel text rest
    | c :: rest => .ok (.char c, rest)

/-- Read a group up to its closing parenthesis; `whole` is the text from the group on. -/
def readGroup : Nat → List Char → List Char → Except Refusal (Expr × List Char)
  | 0, whole, _ => refuse .unclosedGroup whole 1
  | fuel + 1, whole, text => do
    let (expr, rest) ← readChoice fuel text
    match rest with
    | ')' :: rest => return (expr, rest)
    | _ => refuse .unclosedGroup whole 1

end

/-- The pattern of a text. -/
def read (text : List Char) : Except Refusal Expr := do
  let (expr, rest) ← readChoice (4 * text.length + 4) text
  match rest with
  | [] => return expr
  | rest => refuse .unopenedGroup rest 1

/-- What compiles the text of a pattern: it gives what the pattern matches, or the message of its
refusal. -/
abbrev Compiler := String → Except String (List Char → Bool)

/-- The compiler of the notation that is read here. -/
def compile : Compiler := fun text =>
  match read text.toList with
  | .ok expr => .ok expr.isMatch
  | .error refusal => .error (refusal.message text.toList)

end RepoContract.Pattern
