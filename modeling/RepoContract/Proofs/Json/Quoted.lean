/-
# RepoContract.Proofs.Json.Quoted: texts are read back as they were written

A text between quotes is written character by character, and each written character is read as the
one it came from (`readCharacters_escape`), whatever stands behind it. So reading a quoted text
gives the text and leaves the rest (`readText_quoted`), for all characters: quotes, backslashes,
control characters and those outside ASCII.
-/
import RepoContract.Json.Output
import RepoContract.Json.Reader

namespace RepoContract.Json

set_option autoImplicit false

theorem hexValue?_hexChar : ∀ n, n < 16 → hexValue? (hexChar n) = some n := by
  decide

/-- The four digits of a control character are read as its number. -/
theorem hexUnit?_control {n : Nat} (control : n < 0x20) :
    hexUnit? '0' '0' (hexChar (n / 16)) (hexChar (n % 16)) = some n := by
  have zero : hexValue? '0' = some 0 := by decide
  rw [hexUnit?, zero, hexValue?_hexChar (n / 16) (by omega),
    hexValue?_hexChar (n % 16) (Nat.mod_lt n (by decide))]
  have digits : ((0 * 16 + 0) * 16 + n / 16) * 16 + n % 16 = n := by omega
  exact congrArg some digits

theorem readEscape_control {c : Char} (control : c.toNat < 0x20) (tail : List Char) :
    readEscape ('u' :: '0' :: '0' :: hexChar (c.toNat / 16) :: hexChar (c.toNat % 16) :: tail) =
      .ok (c, tail) := by
  have unit := hexUnit?_control control
  have notLow : (0xDC00 ≤ c.toNat && c.toNat ≤ 0xDFFF) = false := by
    simp only [Bool.and_eq_false_iff, decide_eq_false_iff_not]
    omega
  have plain : (c.toNat < 0xD800 || 0xDBFF < c.toNat) = true := by
    simp only [Bool.or_eq_true, decide_eq_true_eq]
    omega
  simp only [readEscape, readCodePoint, readUnit, unit, bind, Except.bind, notLow, plain,
    Bool.false_eq_true, if_false, if_true, Char.ofNat_toNat]
  rfl

/-- **A written character is read as the character it came from.** -/
theorem readCharacters_escape (fuel : Nat) (c : Char) (tail : List Char) :
    readCharacters (fuel + 1) (escape c ++ tail) =
      (readCharacters fuel tail).map fun (more, rest) => (c :: more, rest) := by
  have joined : ∀ result : Except Stop (List Char × List Char),
      (result >>= fun (more, rest) => pure (c :: more, rest)) =
        result.map fun (more, rest) => (c :: more, rest) := by
    intro result
    cases result <;> rfl
  rw [← joined]
  unfold escape
  split
  · rfl
  · rfl
  · rfl
  · rfl
  · rfl
  · rfl
  · rfl
  · rename_i notQuote notBackslash _ _ _ _ _
    split
    · rename_i control
      simp only [List.cons_append, List.nil_append, readCharacters, readEscape_control control]
      rfl
    · rename_i visible
      rw [List.singleton_append, readCharacters]
      · rw [if_neg visible]
      · exact notQuote
      · exact notBackslash

theorem readCharacters_quoted (fuel : Nat) (text rest : List Char) (enough : text.length < fuel) :
    readCharacters fuel (text.flatMap escape ++ '"' :: rest) = .ok (text, rest) := by
  induction text generalizing fuel with
  | nil =>
      obtain ⟨fuel, rfl⟩ := Nat.exists_eq_add_one_of_ne_zero (Nat.ne_of_gt enough)
      rfl
  | cons c more ih =>
      have some := Nat.zero_lt_of_lt enough
      obtain ⟨fuel, rfl⟩ := Nat.exists_eq_add_one_of_ne_zero (Nat.ne_of_gt some)
      have left : more.length < fuel := by
        simpa using enough
      rw [List.flatMap_cons, List.append_assoc, readCharacters_escape, ih fuel left]
      rfl

theorem length_le_flatMap_escape (text : List Char) :
    text.length ≤ (text.flatMap escape).length := by
  induction text with
  | nil => simp
  | cons c more ih =>
      have written : 0 < (escape c).length := by
        unfold escape
        split <;> (try split) <;> simp
      simp only [List.flatMap_cons, List.length_append, List.length_cons]
      omega

/-- **A quoted text is read back**, with what stands behind it left over. -/
theorem readText_quoted (value : String) (rest : List Char) :
    readText (value.toList.flatMap escape ++ '"' :: rest) = .ok (value, rest) := by
  have room := length_le_flatMap_escape value.toList
  have enough : value.toList.length <
      (value.toList.flatMap escape ++ '"' :: rest).length + 1 := by
    rw [List.length_append]
    omega
  rw [readText, readCharacters_quoted _ _ _ enough]
  simp only [bind, Except.bind, String.ofList_toList]
  rfl

end RepoContract.Json
