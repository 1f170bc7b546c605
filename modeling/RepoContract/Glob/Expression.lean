/-
# RepoContract.Glob.Expression: the search expression of a glob

A glob that is a search has an expression: a text in the usual notation, over bytes, from the
start to the end of the path. `nesting` is how deep its groups, alternatives, repetitions and
rows are in each other.
-/
import RepoContract.Glob.Basic

namespace RepoContract.Glob

set_option autoImplicit false

/-- The signs that have a meaning in an expression. -/
def signs : List Char :=
  ['\\', '.', '+', '*', '?', '(', ')', '|', '[', ']', '{', '}', '^', '$', '#', '&', '-', '~']

/-- A byte that stands for itself: above ASCII in hexadecimal, a sign behind a backslash. -/
def byteExpression (byte : UInt8) : List Char :=
  let c := Char.ofNat byte.toNat
  if 0x80 ≤ byte then ['\\', 'x'] ++ Nat.toDigits 16 byte.toNat
  else if signs.contains c then ['\\', c]
  else [c]

/-- A character that stands for itself. -/
def charExpression (c : Char) : List Char :=
  (Text.Utf8.encode [c]).flatMap byteExpression

def rangeExpression : Char × Char → List Char
  | (low, high) =>
    if low = high then charExpression low
    else charExpression low ++ '-' :: charExpression high

mutual

def Token.expression : Token → List Char
  | .char c => charExpression c
  | .anyByte => ['.']
  | .anyRun => ['.', '*']
  | .leadingDirs => "(?:/?|.*/)".toList
  | .trailingDirs => "/.*".toList
  | .innerDirs => "(?:/|/.*/)".toList
  | .oneOf negated ranges =>
    (if negated then ['[', '^'] else ['[']) ++ ranges.flatMap rangeExpression ++ [']']
  | .branches alternatives =>
    match branchExpressions alternatives with
    | [] => []
    | texts => "(?:".toList ++ ['|'].intercalate texts ++ [')']

def rowExpression : List Token → List Char
  | [] => []
  | token :: rest => token.expression ++ rowExpression rest

/-- The expressions of the branches that have anything in them. -/
def branchExpressions : List (List Token) → List (List Char)
  | [] => []
  | tokens :: rest =>
    match rowExpression tokens with
    | [] => branchExpressions rest
    | text => text :: branchExpressions rest

end

/-- The search expression of a glob. -/
def expression (tokens : List Token) : String :=
  "(?-u)^" ++ String.ofList (rowExpression tokens) ++ "$"

/-- How many items of a row a token becomes. -/
def Token.items : Token → Nat
  | .char c => (Text.Utf8.encode [c]).length
  | .trailingDirs => 2
  | .branches alternatives => if allHollow alternatives then 0 else 1
  | _ => 1

/-- A level for a row, which one item alone does not need. -/
def rowLevel (tokens : List Token) : Nat :=
  if 2 ≤ tokens.foldl (fun count token => count + token.items) 0 then 1 else 0

mutual

/-- How deep the expression of a token is. -/
def Token.nesting : Token → Nat
  | .char _ | .anyByte => 0
  | .anyRun | .trailingDirs => 1
  | .leadingDirs | .innerDirs => 4
  | .oneOf _ ranges => if 2 ≤ (byteRanges ranges).length then 2 else 1
  | .branches alternatives =>
    match alternatives.countP (!isHollowGlob ·) with
    | 0 => 0
    | 1 => 1 + branchNesting alternatives
    | _ => 2 + branchNesting alternatives

def rowNesting : List Token → Nat
  | [] => 0
  | token :: rest => max token.nesting (rowNesting rest)

def branchNesting : List (List Token) → Nat
  | [] => 0
  | tokens :: rest => max (rowLevel tokens + rowNesting tokens) (branchNesting rest)

end

/-- How deep the search expression of a glob is. -/
def nesting (tokens : List Token) : Nat :=
  1 + rowNesting tokens

end RepoContract.Glob
