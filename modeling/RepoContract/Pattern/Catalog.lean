/-
# RepoContract.Pattern.Catalog: the patterns a contract may forbid

Each entry has one pattern per family of languages and judges single lines. An entry without a
pattern for a language never fires in it. Names of languages are compared without regard to
ASCII letter case.
-/
import RepoContract.Contract.Basic
import RepoContract.Pattern.Expr

namespace RepoContract

set_option autoImplicit false

open Pattern (Expr Kind)

/-- A catalog entry. -/
structure ForbiddenPattern where
  id : String
  description : String
  /-- Families of languages, each with its pattern. -/
  matchers : List (List String × Expr)

/-- Whether two texts differ at most in the case of ASCII letters. -/
def sameAsciiCase (left right : String) : Bool :=
  left.toList.map Char.toLower == right.toList.map Char.toLower

namespace ForbiddenPattern

open Pattern.Expr

def scripts : List String := ["javascript", "typescript"]
def python : List String := ["python"]
def rust : List String := ["rust"]

/-- The start of the text, or a character of none of some kinds. -/
def after (kinds : List Kind) : Expr := .choice .start (outside kinds)

def openParen : Expr := .seq blanks (char '(')

/-- A word edge and a word behind it. -/
def atEdge (word : List Char) : Expr := .seq (.edge false) (chars word)

/-- An indented line that starts so. -/
def indented (rest : List Expr) : Expr := row (.start :: blanks :: rest)

def evalWord : Expr := chars ['e', 'v', 'a', 'l']

/-- A bare call of `eval`, or of the constructor of functions. -/
def scriptEval : Expr :=
  .choice
    (row [after [.word, .char '$', .char '.'], evalWord, openParen])
    (row [atEdge ['n', 'e', 'w'], someBlanks, chars ['F', 'u', 'n', 'c', 't', 'i', 'o', 'n'],
      openParen])

/-- A bare call of `eval` or `exec`. -/
def pythonEval : Expr :=
  row [after [.word, .char '.'], .choice evalWord (chars ['e', 'x', 'e', 'c']), openParen]

/-- An assignment to a member of a global object. -/
def scriptGlobal : Expr :=
  row [.edge false,
    anyOf [chars ['w', 'i', 'n', 'd', 'o', 'w'],
      chars ['g', 'l', 'o', 'b', 'a', 'l', 'T', 'h', 'i', 's'],
      chars ['g', 'l', 'o', 'b', 'a', 'l']],
    char '.', oneOrMore (among [.word, .char '$']), blanks, char '=', outside [.char '=']]

def pythonGlobal : Expr :=
  indented [chars ['g', 'l', 'o', 'b', 'a', 'l'], someBlanks, among [.word]]

def importWord : Expr := chars ['i', 'm', 'p', 'o', 'r', 't']

def scriptWildcard : Expr :=
  row [.edge false, importWord, blanks, char '*', blanks, chars ['a', 's'], .edge false]

def pythonWildcard : Expr :=
  indented [chars ['f', 'r', 'o', 'm'], someBlanks, oneOrMore (outside [.blank]), someBlanks,
    importWord, someBlanks, char '*']

def rustWildcard : Expr :=
  indented [maybe (.seq (chars ['p', 'u', 'b']) someBlanks), chars ['u', 's', 'e'], someBlanks,
    oneOrMore (among [.word, .char ':']), chars [':', ':', '*'], blanks, char ';']

def scriptConsole : Expr :=
  .seq (atEdge ['c', 'o', 'n', 's', 'o', 'l', 'e', '.', 'l', 'o', 'g']) openParen

def pythonConsole : Expr :=
  row [after [.word, .char '.'], chars ['p', 'r', 'i', 'n', 't'], openParen]

def scriptDebugger : Expr :=
  row [after [.word, .char '$', .char '.'], chars ['d', 'e', 'b', 'u', 'g', 'g', 'e', 'r'],
    blanks, maybe (.seq (char ';') blanks), .stop]

def pythonDebugger : Expr :=
  .choice
    (.seq (atEdge ['b', 'r', 'e', 'a', 'k', 'p', 'o', 'i', 'n', 't']) openParen)
    (.seq (atEdge ['p', 'd', 'b', '.', 's', 'e', 't', '_', 't', 'r', 'a', 'c', 'e']) openParen)

def pythonExcept : Expr :=
  indented [chars ['e', 'x', 'c', 'e', 'p', 't'], blanks, char ':']

/-- Every entry, in the order of the ids. -/
def catalog : List ForbiddenPattern := [
  ⟨"dynamic-eval", "dynamic code evaluation", [(scripts, scriptEval), (python, pythonEval)]⟩,
  ⟨"global-mutation", "mutation of global state",
    [(scripts, scriptGlobal), (python, pythonGlobal)]⟩,
  ⟨"wildcard-import", "wildcard import",
    [(scripts, scriptWildcard), (python, pythonWildcard), (rust, rustWildcard)]⟩,
  ⟨"console-log", "debug console output", [(scripts, scriptConsole), (python, pythonConsole)]⟩,
  ⟨"debugger-statement", "debugger statement",
    [(scripts, scriptDebugger), (python, pythonDebugger)]⟩,
  ⟨"bare-except", "bare except clause", [(python, pythonExcept)]⟩]

/-- The entry of an id. -/
def find? (id : String) : Option ForbiddenPattern :=
  catalog.find? (·.id == id)

/-- The pattern of an entry for a language. -/
def matcher? (pattern : ForbiddenPattern) (language : String) : Option Expr :=
  (pattern.matchers.find? fun (family, _) => family.any (sameAsciiCase · language)).map (·.2)

/-- Whether an entry fires on a line of a language. -/
def firesOn (pattern : ForbiddenPattern) (language : String) (line : List Char) : Bool :=
  (pattern.matcher? language).any (·.isMatch line)

end ForbiddenPattern

theorem catalog_ids : ForbiddenPattern.catalog.map (·.id) = patternIds := rfl

end RepoContract
