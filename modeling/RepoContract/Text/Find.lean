/-
# RepoContract.Text.Find: where a text stands in another

The first place where a text occurs, counted in characters, and the text without a given ending.
The empty text occurs at the front of every text.
-/
namespace RepoContract.Text

set_option autoImplicit false

/-- The characters in front of the first occurrence of `needle`. -/
def offset? (needle : List Char) : List Char → Option Nat
  | [] => if needle.isEmpty then some 0 else none
  | c :: rest =>
    if needle.isPrefixOf (c :: rest) then some 0 else (offset? needle rest).map (· + 1)

/-- What follows the first occurrence of `needle`. -/
def after? (needle text : List Char) : Option (List Char) :=
  (offset? needle text).map fun count => text.drop (count + needle.length)

/-- The text without `ending`, when it ends so. -/
def dropEnding? (ending text : List Char) : Option (List Char) :=
  if ending.isSuffixOf text then some (text.take (text.length - ending.length)) else none

end RepoContract.Text
