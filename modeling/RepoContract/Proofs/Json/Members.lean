/-
# RepoContract.Proofs.Json.Members: what stands under a key

An object keeps one member per key, in the order of the keys; of several members with one key the
last wins. So looking up a key in it is looking up the key in the members as they came, from the
last to the first (`lookup?_ofMembers`).
-/
import RepoContract.Json.Output

namespace RepoContract.Json

set_option autoImplicit false

namespace Value

theorem lookup?_nil (key : String) : lookup? key [] = none :=
  rfl

theorem lookup?_append (key : String) (first second : List (String × Value)) :
    lookup? key (first ++ second) = (lookup? key first).or (lookup? key second) :=
  List.lookup_append

theorem lookup?_foldl_insert (key : String) (members sorted : List (String × Value)) :
    lookup? key (members.foldl (fun sorted (key, value) => insert key value sorted) sorted) =
      (lookup? key members.reverse).or (lookup? key sorted) := by
  induction members generalizing sorted with
  | nil => rfl
  | cons member rest ih =>
      obtain ⟨other, value⟩ := member
      rw [List.foldl_cons, ih, lookup?_insert, List.reverse_cons, lookup?_append, Option.or_assoc,
        lookup?_cons]
      split <;> simp [lookup?]

/-- **Under a key an object holds the last member that came with it.** -/
theorem lookup?_ofMembers (members : List (String × Value)) :
    ∃ sorted, ofMembers members = .object sorted ∧
      ∀ key, lookup? key sorted = lookup? key members.reverse :=
  ⟨_, rfl, fun key => by rw [lookup?_foldl_insert]; exact Option.or_none⟩

end Value

namespace Output

theorem toValues_eq_map (items : List Output) : toValues items = items.map toValue := by
  induction items with
  | nil => rfl
  | cons item items ih => rw [toValues, ih, List.map_cons]

theorem toMembers_eq_map (members : List (String × Output)) :
    toMembers members = members.map fun (key, value) => (key, value.toValue) := by
  induction members with
  | nil => rfl
  | cons member members ih => rw [toMembers, ih, List.map_cons]

/-- The value of a record is an object that holds the last member of each key. -/
theorem toValue_record (members : List (String × Output)) :
    ∃ sorted, (Output.record members).toValue = .object sorted ∧
      ∀ key, Value.lookup? key sorted =
        Value.lookup? key (members.reverse.map fun (key, value) => (key, value.toValue)) := by
  obtain ⟨sorted, isObject, holds⟩ := Value.lookup?_ofMembers (toMembers members)
  refine ⟨sorted, isObject, fun key => ?_⟩
  rw [holds key, toMembers_eq_map, List.map_reverse]

end Output

end RepoContract.Json
