/-
# RepoContract.Json.Value: documents as values

A document is null, a truth value, a number, a text, an array or an object. An object is kept in
its normal form: one member per key, in the order of the keys. `Value.object` is built through
`Value.ofMembers`, in which the last member of a key wins.
-/
namespace RepoContract.Json

set_option autoImplicit false

/-- An integer between -2^63 and 2^64 - 1, or a double by its bits. -/
inductive Number where
  | integer (value : Int)
  | double (bits : UInt64)
  deriving DecidableEq, Repr

inductive Value where
  | null
  | bool (value : Bool)
  | number (value : Number)
  | text (value : String)
  | array (items : List Value)
  | object (members : List (String × Value))
  deriving BEq, Repr, Inhabited

namespace Value

/-- What kind of value a message says it found. -/
def kind : Value → String
  | .null => "null"
  | .bool _ => "boolean"
  | .number _ => "number"
  | .text _ => "string"
  | .array _ => "array"
  | .object _ => "object"

/-- Put a member in its place, instead of one with the same key. -/
def insert (key : String) (value : Value) : List (String × Value) → List (String × Value)
  | [] => [(key, value)]
  | (k, v) :: rest =>
    if key < k then (key, value) :: (k, v) :: rest
    else if key = k then (key, value) :: rest
    else (k, v) :: insert key value rest

/-- The object with these members, the last of each key. -/
def ofMembers (members : List (String × Value)) : Value :=
  .object (members.foldl (fun sorted (key, value) => insert key value sorted) [])

/-- The member of a key. -/
def lookup? (key : String) (members : List (String × Value)) : Option Value :=
  members.lookup key

theorem lookup?_cons (other key : String) (value : Value) (members : List (String × Value)) :
    lookup? other ((key, value) :: members)
      = if other = key then some value else lookup? other members := by
  by_cases h : other = key
  · subst h
    simp [lookup?]
  · have differs : (other == key) = false := by simpa using h
    rw [if_neg h, lookup?, List.lookup_cons, differs]
    rfl

theorem lookup?_insert (key other : String) (value : Value) (members : List (String × Value)) :
    lookup? other (insert key value members)
      = if other = key then some value else lookup? other members := by
  induction members with
  | nil => simp [insert, lookup?_cons]
  | cons member rest ih =>
    obtain ⟨k, v⟩ := member
    simp only [insert]
    split
    · simp [lookup?_cons]
    · split
      · next h => subst h; by_cases hk : other = key <;> simp [lookup?_cons, hk]
      · next h =>
        simp only [lookup?_cons, ih]
        by_cases hk : other = k
        · subst hk; simp [Ne.symm h]
        · simp [hk]

end Value

end RepoContract.Json
