/-
# RepoContract.Language.BuiltIn: the languages known from the start
-/
import RepoContract.Language.Table

namespace RepoContract.LanguageTable

set_option autoImplicit false

/-- Two slashes up to the end of a line, and a slash and a star up to their mirror image. -/
def slashComments : Delimiters :=
  ⟨[['/', '/']], [(['/', '*'], ['*', '/'])]⟩

def numberSignComments : Delimiters :=
  ⟨[['#']], []⟩

def scriptExport : String :=
  "^\\s*export\\s|^\\s*module\\.exports\\b|^\\s*exports\\.\\w+\\s*="

def builtInLanguages : List Language := [
  ⟨"javascript", ["js", "mjs", "cjs", "jsx"], slashComments, scriptExport⟩,
  ⟨"typescript", ["ts", "tsx", "mts", "cts"], slashComments, scriptExport⟩,
  ⟨"python", ["py"], numberSignComments, "^__all__\\s*="⟩,
  ⟨"rust", ["rs"], slashComments,
    "^\\s*pub\\s+(?:async\\s+)?(?:fn|struct|enum|trait|mod|const|static|type|use)\\b"⟩,
  ⟨"go", ["go"], slashComments,
    "^(?:func\\s+(?:\\([^)]*\\)\\s*)?|type\\s+|var\\s+|const\\s+)[A-Z]"⟩]

/-- The table of the languages known from the start. -/
def builtIn : LanguageTable :=
  empty.addAll builtInLanguages

end RepoContract.LanguageTable
