/-
# RepoContract.Json.Output: documents that are written

The documents this library writes hold texts, counts, lists and records, and the members of a
record stay in the order given. `render` writes one over several lines, two blanks per level;
`toValue` is the value a reader finds in it.
-/
import RepoContract.Json.Value
import RepoContract.Text.Decimal

namespace RepoContract.Json

set_option autoImplicit false

inductive Output where
  | text (value : String)
  | count (value : Nat)
  | list (items : List Output)
  | record (members : List (String × Output))

/-- A hexadecimal digit, in lower case. -/
def hexChar (n : Nat) : Char :=
  if n < 10 then Char.ofNat (0x30 + n) else Char.ofNat (0x57 + n)

/-- A character as it stands between quotes. -/
def escape (c : Char) : List Char :=
  match c with
  | '"' => ['\\', '"']
  | '\\' => ['\\', '\\']
  | '\x08' => ['\\', 'b']
  | '\x0C' => ['\\', 'f']
  | '\n' => ['\\', 'n']
  | '\r' => ['\\', 'r']
  | '\t' => ['\\', 't']
  | c =>
    if c.toNat < 0x20 then
      ['\\', 'u', '0', '0', hexChar (c.toNat / 16), hexChar (c.toNat % 16)]
    else [c]

/-- A text between quotes. -/
def quoted (value : String) : List Char :=
  '"' :: value.toList.flatMap escape ++ ['"']

/-- The end of a line and the blanks of the next. -/
def newLine (level : Nat) : List Char :=
  '\n' :: List.replicate (2 * level) ' '

namespace Output

mutual

/-- The text of a document that stands at a level. -/
def renderAt (level : Nat) : Output → List Char
  | .text value => quoted value
  | .count value => Text.decimal value
  | .list [] => ['[', ']']
  | .list (item :: items) =>
    '[' :: newLine (level + 1) ++ renderAt (level + 1) item ++ renderItems (level + 1) items
      ++ newLine level ++ [']']
  | .record [] => ['{', '}']
  | .record ((key, value) :: members) =>
    '{' :: newLine (level + 1) ++ quoted key ++ [':', ' '] ++ renderAt (level + 1) value
      ++ renderMembers (level + 1) members ++ newLine level ++ ['}']

/-- The items after the first, each behind a comma. -/
def renderItems (level : Nat) : List Output → List Char
  | [] => []
  | item :: items => ',' :: newLine level ++ renderAt level item ++ renderItems level items

/-- The members after the first, each behind a comma. -/
def renderMembers (level : Nat) : List (String × Output) → List Char
  | [] => []
  | (key, value) :: members =>
    ',' :: newLine level ++ quoted key ++ [':', ' '] ++ renderAt level value
      ++ renderMembers level members

end

/-- The text of a document. -/
def render (output : Output) : String :=
  String.ofList (renderAt 0 output)

mutual

/-- The value that reading a document gives. -/
def toValue : Output → Value
  | .text value => .text value
  | .count value => .number (.integer value)
  | .list items => .array (toValues items)
  | .record members => .ofMembers (toMembers members)

def toValues : List Output → List Value
  | [] => []
  | item :: items => toValue item :: toValues items

def toMembers : List (String × Output) → List (String × Value)
  | [] => []
  | (key, value) :: members => (key, toValue value) :: toMembers members

end

end Output

end RepoContract.Json
