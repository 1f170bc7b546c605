/-
# RepoContract.Hint: hints in comments

A comment line may carry one hint, `@aocs-key: value`. Its key is the longest run of ASCII
letters, digits, underscores and dashes behind the first `@aocs-`; its value is what follows the
colon, without blanks around it and without the closers of block comments at its end.
-/
import RepoContract.Comment

namespace RepoContract

set_option autoImplicit false

structure Hint where
  /-- Counted from one. -/
  line : Nat
  key : String
  /-- None when the colon is missing. -/
  value : Option String
  deriving DecidableEq, Repr

/-- What is wrong with a hint. -/
inductive HintProblem where
  | unknownKey
  | missingColon
  | emptyValue
  deriving DecidableEq, Repr

namespace Hint

/-- The keys that rules understand. -/
def knownKeys : List String :=
  ["role", "module", "exports", "owner", "side-effects", "depends"]

/-- What every hint starts with. -/
def sign : List Char := ['@', 'a', 'o', 'c', 's', '-']

def isKeyChar (c : Char) : Bool :=
  c.isAlphanum || c = '_' || c = '-'

/-- What is wrong with a hint, the unknown key first. -/
def problem? (hint : Hint) : Option HintProblem :=
  if !knownKeys.contains hint.key then some .unknownKey
  else
    match hint.value with
    | none => some .missingColon
    | some value => if value = "" then some .emptyValue else none

/-- The value of a hint that has one which is not empty. -/
def content? (hint : Hint) : Option String :=
  hint.value.filter (· ≠ "")

/-- A value without the closers at its end, each taken off once in the order declared. -/
def dropClosers (closers : List (List Char)) (value : List Char) : List Char :=
  closers.foldl (fun value closer =>
    match Text.dropEnding? closer value with
    | some rest => Text.trimEnd rest
    | none => value) value

/-- The value behind a key, none without a colon. -/
def valueOf? (closers : List (List Char)) (text : List Char) : Option (List Char) :=
  match Text.trimStart text with
  | ':' :: rest => some (dropClosers closers (Text.trim rest))
  | _ => none

/-- The hint of a comment line. -/
def ofLine? (closers : List (List Char)) (number : Nat) (line : List Char) : Option Hint :=
  (Text.after? sign line).map fun rest =>
    { line := number
      key := String.ofList (rest.takeWhile isKeyChar)
      value := (valueOf? closers (rest.dropWhile isKeyChar)).map String.ofList }

/-- The hints of a text whose comment lines are known. -/
def ofMask (marks : Delimiters) (mask : List Bool) (text : List Char) : List Hint :=
  ((Text.numberedLines text).zip mask).filterMap fun ((number, line), isComment) =>
    if isComment then ofLine? (marks.block.map (·.2)) number line else none

/-- The hints of a text. -/
def ofText (marks : Delimiters) (text : List Char) : List Hint :=
  ofMask marks (marks.mask text) text

end Hint

end RepoContract
