/-
# RepoContract.Source: source files as rules see them

A source file is a text in a known language, under the path by which it is reported. Its lines
are told apart once: a comment line may carry a hint, every other line is code.
-/
import RepoContract.Hint
import RepoContract.Language.Table
import RepoContract.Path

namespace RepoContract

set_option autoImplicit false

structure SourceFile where
  /-- As seen from the root of the project. -/
  path : Path
  language : Language
  text : List Char

namespace SourceFile

/-- The language of a path, by its extension. -/
def classify? (languages : LanguageTable) (path : Path) : Option Language :=
  path.extensionText?.bind languages.byExtension?

/-- For each line, whether it is a comment. -/
def mask (source : SourceFile) : List Bool :=
  source.language.comments.mask source.text

/-- The hints in the comments, in order. -/
def hints (source : SourceFile) : List Hint :=
  Hint.ofMask source.language.comments source.mask source.text

/-- The lines that are no comments, with their numbers. -/
def codeLines (source : SourceFile) : List (Nat × List Char) :=
  ((Text.numberedLines source.text).zip source.mask).filterMap fun (line, isComment) =>
    if isComment then none else some line

/-- The values of a key that are not empty, with their lines. -/
def valuesOf (source : SourceFile) (key : String) : List (Nat × String) :=
  source.hints.filterMap fun hint =>
    if hint.key = key then hint.content?.map fun value => (hint.line, value) else none

/-- Whether some hint gives a key a value that is not empty. -/
def hasHint (source : SourceFile) (key : String) : Bool :=
  source.hints.any fun hint => hint.key = key && hint.content?.isSome

end SourceFile

end RepoContract
