/-
# RepoContract.Glob.Manner: how a glob is judged

A glob of a plain shape is judged by a part of the path alone: its last name, its extension, its
beginning or its end. The shapes are tried in a fixed order; a glob of none of them is a search.
A path whose last part leads up has no last name, so a glob that looks at the last name does not
match it.
-/
import RepoContract.Glob.Basic

namespace RepoContract.Glob

set_option autoImplicit false

inductive Manner where
  /-- The last name is given. -/
  | lastName
  /-- The path is given. -/
  | literal
  /-- What follows the last dot of the last name is given. -/
  | extension
  /-- The beginning of the path is given. -/
  | beginning
  /-- The end of the path is given. -/
  | ending
  /-- A search, where the extension of the last name is given. -/
  | searchByExtension
  | search
  deriving DecidableEq, Repr

/-- Whether the last name is looked at. -/
def Manner.needsName : Manner → Bool
  | .lastName | .extension | .searchByExtension => true
  | .literal | .beginning | .ending | .search => false

/-- Characters of an extension. -/
def Token.isExtensionChar (token : Token) : Bool :=
  token.isChar && !token.isCharOf '.' && !token.isCharOf '/'

/-- Characters without a slash, behind leading directories. -/
def isLastName : List Token → Bool
  | .leadingDirs :: rest => !rest.isEmpty && rest.all Token.isChar && !rest.any (·.isCharOf '/')
  | _ => false

def isLiteral (tokens : List Token) : Bool :=
  !tokens.isEmpty && tokens.all Token.isChar

/-- A dot behind a run, and an extension. -/
def isExtension : List Token → Bool
  | .leadingDirs :: .anyRun :: .char '.' :: rest => rest.all Token.isExtensionChar
  | .anyRun :: .char '.' :: rest => rest.all Token.isExtensionChar
  | _ => false

/-- Characters in front of a run or of anything below them. -/
def isBeginning (tokens : List Token) : Bool :=
  match tokens.getLast? with
  | some .anyRun => isLiteral tokens.dropLast
  | some .trailingDirs => tokens.dropLast.all Token.isChar
  | _ => false

/-- Characters other than a lone slash. -/
def isEndingText : List Token → Bool
  | [.char '/'] => false
  | tokens => isLiteral tokens

/-- Characters behind leading directories, a run, or both. -/
def isEnding : List Token → Bool
  | .leadingDirs :: .anyRun :: rest => isEndingText rest
  | .anyRun :: rest => isEndingText rest
  | .leadingDirs :: rest => isLiteral rest
  | _ => false

/-- Whether a dot and an extension are at the end. -/
def endsInExtension (tokens : List Token) : Bool :=
  (tokens.reverse.dropWhile Token.isExtensionChar).head?.any (·.isCharOf '.')

/-- The manner in which a glob is judged. -/
def Manner.ofTokens (tokens : List Token) : Manner :=
  if isLastName tokens then .lastName
  else if isLiteral tokens then .literal
  else if isExtension tokens then .extension
  else if isBeginning tokens then .beginning
  else if isEnding tokens then .ending
  else if endsInExtension tokens then .searchByExtension
  else .search

end RepoContract.Glob
