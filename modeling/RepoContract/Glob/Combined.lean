/-
# RepoContract.Glob.Combined: globs that are tried together

Globs are combined before they are tried. Those that search by extension stand alone, all other
searches are one; a search that is nested too deeply is refused, the former before the latter.
-/
import RepoContract.Glob.Expression
import RepoContract.Glob.Match
import RepoContract.Text.Decimal

namespace RepoContract.Glob

set_option autoImplicit false

/-- How deep a search expression may be. -/
def nestingLimit : Nat := 250

/-- Which search of the combined globs is nested too deeply. -/
inductive Refusal where
  /-- One that stands alone, with its expression. -/
  | alone (expression : String)
  /-- The one with this number among those that are one. -/
  | numbered (index : Nat)
  deriving DecidableEq, Repr

def Refusal.message : Refusal → String
  | .alone expression => "error parsing glob '" ++ expression ++ "': error parsing pattern 0"
  | .numbered index => "error parsing pattern " ++ String.ofList (Text.decimal index)

def isTooDeep (tokens : List Token) : Bool :=
  nestingLimit < nesting tokens

/-- The globs of a manner, in order. -/
def ofManner (manner : Manner) (globs : List (List Token)) : List (List Token) :=
  globs.filter fun tokens => Manner.ofTokens tokens = manner

/-- Why some globs cannot be combined. -/
def refusal? (globs : List (List Token)) : Option Refusal :=
  match (ofManner .searchByExtension globs).find? isTooDeep with
  | some tokens => some (.alone (expression tokens))
  | none => ((ofManner .search globs).findIdx? isTooDeep).map .numbered

/-- Whether one of some globs matches a path. -/
def anyMatch (globs : List (List Token)) (path : Path) : Bool :=
  globs.any fun tokens => isMatch tokens path

end RepoContract.Glob
