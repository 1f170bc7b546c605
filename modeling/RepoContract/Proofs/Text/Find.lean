/-
# RepoContract.Proofs.Text.Find: the first occurrence, read from the left

`Text.offset?` and `Text.after?` look for the first occurrence of a text. Here both are read one
character at a time: a text that starts with the needle has it at place zero
(`offset?_of_starts`), any other moves every later place by one (`offset?_cons`). A place that is
found leaves room for the needle behind it (`offset?_add_length_le`), so cutting there stays
inside the text.
-/
import RepoContract.Text.Find

namespace RepoContract.Text

set_option autoImplicit false

variable {needle text rest : List Char} {c : Char} {count : Nat}

theorem offset?_of_starts (starts : needle.isPrefixOf text = true) :
    offset? needle text = some 0 := by
  cases text with
  | nil =>
      have empty : needle = [] := by simpa using starts
      simp [offset?, empty]
  | cons c rest => simp [offset?, starts]

theorem offset?_cons (differs : needle.isPrefixOf (c :: rest) = false) :
    offset? needle (c :: rest) = (offset? needle rest).map (· + 1) := by
  simp [offset?, differs]

/-- Only what stands in front is found at place zero. -/
theorem offset?_pos (differs : needle.isPrefixOf text = false)
    (found : offset? needle text = some count) : 0 < count := by
  cases text with
  | nil => cases needle <;> simp [offset?] at differs found
  | cons c rest =>
      rw [offset?_cons differs] at found
      obtain ⟨before, -, rfl⟩ := Option.map_eq_some_iff.1 found
      exact Nat.succ_pos before

/-- A text in which a needle is found holds the whole of it behind the place. -/
theorem offset?_add_length_le (found : offset? needle text = some count) :
    count + needle.length ≤ text.length := by
  induction text generalizing count with
  | nil =>
      cases needle <;> simp [offset?] at found
      simp [← found]
  | cons c rest ih =>
      cases starts : needle.isPrefixOf (c :: rest) with
      | true =>
          rw [offset?_of_starts starts] at found
          have fits := (List.isPrefixOf_iff_prefix.1 starts).length_le
          obtain rfl : 0 = count := Option.some.inj found
          simpa using fits
      | false =>
          rw [offset?_cons starts, Option.map_eq_some_iff] at found
          obtain ⟨before, found, rfl⟩ := found
          have := ih found
          simp only [List.length_cons]
          omega

/-- Nothing is found in a text that does not hold the needle. -/
theorem offset?_eq_none (absent : ¬ needle <:+: text) : offset? needle text = none := by
  induction text with
  | nil =>
      have filled : needle ≠ [] := by
        rintro rfl
        exact absent List.nil_infix
      simp [offset?, filled]
  | cons c rest ih =>
      obtain ⟨notHere, notLater⟩ := not_or.1 (mt List.infix_cons_iff.2 absent)
      have differs : needle.isPrefixOf (c :: rest) = false := by
        rw [← Bool.not_eq_true, List.isPrefixOf_iff_prefix]
        exact notHere
      rw [offset?_cons differs, ih notLater, Option.map_none]

theorem after?_of_starts (starts : needle.isPrefixOf text = true) :
    after? needle text = some (text.drop needle.length) := by
  simp [after?, offset?_of_starts starts]

theorem after?_cons (differs : needle.isPrefixOf (c :: rest) = false) :
    after? needle (c :: rest) = after? needle rest := by
  rw [after?, after?, offset?_cons differs, Option.map_map]
  congr 1
  funext count
  show (c :: rest).drop (count + 1 + needle.length) = rest.drop (count + needle.length)
  rw [Nat.add_right_comm, List.drop_succ_cons]

/-- A needle is found behind a text that lacks its first character. -/
theorem after?_append {front : List Char} (absent : c ∉ front) (needle rest : List Char) :
    after? (c :: needle) (front ++ (c :: needle ++ rest)) = some rest := by
  induction front with
  | nil =>
      have starts : (c :: needle).isPrefixOf (c :: needle ++ rest) = true :=
        List.isPrefixOf_iff_prefix.2 (List.prefix_append _ _)
      rw [List.nil_append, after?_of_starts starts, List.drop_left]
  | cons d front ih =>
      obtain ⟨isOther, absent⟩ := not_or.1 (mt List.mem_cons.2 absent)
      have differs : (c :: needle).isPrefixOf (d :: (front ++ (c :: needle ++ rest))) = false := by
        simp [List.isPrefixOf, isOther]
      rw [List.cons_append, after?_cons differs, ih absent]

theorem after?_eq_none_iff : after? needle text = none ↔ offset? needle text = none := by
  simp [after?]

/-- What follows a needle that takes text is shorter than the text. -/
theorem after?_length_lt (takes : needle ≠ []) (found : after? needle text = some rest) :
    rest.length < text.length := by
  obtain ⟨count, place, rfl⟩ := Option.map_eq_some_iff.1 found
  have room := offset?_add_length_le place
  have := List.length_pos_iff.2 takes
  simp only [List.length_drop]
  omega

end RepoContract.Text
