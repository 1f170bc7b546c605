/-
# RepoContract.Language.Table: languages and how they are found

A table keeps its languages in the order in which they were added, an index from names to places
in that order, and one from extensions. An entry that is added later takes over the names and
extensions it has. Names are looked up without the blanks around them and in lower case.
-/
import RepoContract.Comment
import RepoContract.Text.LowerCase

namespace RepoContract

set_option autoImplicit false

structure Language where
  name : String
  extensions : List String
  comments : Delimiters
  /-- The pattern of a line that exports something. -/
  exportPattern : String
  deriving DecidableEq, Repr

/-- A name in lower case. -/
def lowerName (name : String) : String :=
  String.ofList (Text.lower name.toList)

/-- A name as it is looked up: without blanks around it, in lower case. -/
def plainName (name : String) : String :=
  String.ofList (Text.lower (Text.trim name.toList))

structure LanguageTable where
  languages : List Language
  names : List (String × Nat)
  extensions : List (String × Nat)

namespace LanguageTable

def empty : LanguageTable := ⟨[], [], []⟩

/-- Enter a key into an index, over the entry it had. -/
def enter (key : String) (place : Nat) (index : List (String × Nat)) : List (String × Nat) :=
  (key, place) :: index.filter (·.1 ≠ key)

/-- Add a language. -/
def add (table : LanguageTable) (language : Language) : LanguageTable :=
  let place := table.languages.length
  { languages := table.languages ++ [language]
    names := enter (lowerName language.name) place table.names
    extensions :=
      language.extensions.foldl (fun index extension => enter extension place index)
        table.extensions }

/-- Add languages in order. -/
def addAll (table : LanguageTable) (languages : List Language) : LanguageTable :=
  languages.foldl add table

/-- The language of an index's entry. -/
def at? (table : LanguageTable) (index : List (String × Nat)) (key : String) : Option Language :=
  (index.lookup key).bind fun place => table.languages[place]?

/-- The language of a name, in any letter case and with blanks around it. -/
def byName? (table : LanguageTable) (name : String) : Option Language :=
  table.at? table.names (plainName name)

/-- The language of an extension. -/
def byExtension? (table : LanguageTable) (extension : String) : Option Language :=
  table.at? table.extensions extension

/-- A sorted list with a text in its place, once. -/
def insertSorted (text : String) : List String → List String
  | [] => [text]
  | first :: rest =>
    if text < first then text :: first :: rest
    else if text = first then first :: rest
    else first :: insertSorted text rest

/-- The extensions of some languages in order, each once; unknown names have none. -/
def extensionsFor (table : LanguageTable) (names : List String) : List String :=
  (names.flatMap fun name => ((table.byName? name).map (·.extensions)).getD []).foldr
    insertSorted []

end LanguageTable

end RepoContract
