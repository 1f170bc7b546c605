/-
# RepoContract.Proofs.Json.Counts: counts are read back as they were written

A count is written in decimal, most significant digit first and without leading zeros. Reading
takes the digits into its significand one by one; below 2^64 none is lost, so the number that
comes out is the integer that was written (`readDigits_decimal`). What stands behind the digits
must not go on with the number (`EndsNumber`).
-/
import RepoContract.Json.Number

namespace RepoContract

set_option autoImplicit false

namespace Text

theorem isDigit_digitChar : ∀ n, n < 10 → (digitChar n).isDigit = true := by
  decide

theorem isDigit_of_mem_decimal (n : Nat) : ∀ c ∈ decimal n, c.isDigit = true := by
  fun_induction decimal n with
  | case1 n small => simpa using isDigit_digitChar n small
  | case2 n large ih =>
      intro c member
      rcases List.mem_append.1 member with front | last
      · exact ih c front
      · rw [List.mem_singleton.1 last]
        exact isDigit_digitChar _ (Nat.mod_lt n (by decide))

/-- The first digit is a zero only when it stands alone. -/
theorem decimal_eq_cons (n : Nat) :
    ∃ k more, k < 10 ∧ decimal n = digitChar k :: more ∧ (k = 0 → more = []) := by
  fun_induction decimal n with
  | case1 n small => exact ⟨n, [], small, rfl, fun _ => rfl⟩
  | case2 n large ih =>
      obtain ⟨k, more, bound, isCons, alone⟩ := ih
      refine ⟨k, more ++ [digitChar (n % 10)], bound, by rw [isCons, List.cons_append], ?_⟩
      rintro rfl
      -- a leading zero in front of further digits would make the rest of the number zero
      obtain rfl := alone rfl
      have value := decimalValue_decimal (n / 10)
      rw [isCons] at value
      have zero : decimalValue [digitChar 0] = 0 := by decide
      omega

end Text

namespace Json

/-- Taking in one more digit never makes the significand smaller. -/
theorem le_foldl_digits (digits : List Char) (start : Nat) :
    start ≤ digits.foldl (fun value c => value * 10 + Text.digitValue c) start := by
  induction digits generalizing start with
  | nil => simp
  | cons d rest ih =>
      have := ih (start * 10 + Text.digitValue d)
      simp only [List.foldl_cons]
      omega

/-- Digits whose value stays below 2^64 are all read into the significand. -/
theorem absorb_eq (digits : List Char) (start : Nat)
    (fits : digits.foldl (fun value c => value * 10 + Text.digitValue c) start < UInt64.size) :
    absorb start digits =
      (digits.foldl (fun value c => value * 10 + Text.digitValue c) start, []) := by
  induction digits generalizing start with
  | nil => rfl
  | cons d rest ih =>
      have next := Nat.lt_of_le_of_lt (le_foldl_digits rest (start * 10 + Text.digitValue d)) fits
      simp only [absorb, next, if_true]
      exact ih _ fits

/-- A text that does not go on with a number in front of it. -/
def EndsNumber (rest : List Char) : Prop :=
  ∀ c ∈ rest.head?, c.isDigit = false ∧ c ≠ '.' ∧ c ≠ 'e' ∧ c ≠ 'E'

theorem endsNumber_cons {c : Char} {rest : List Char}
    (ends : c.isDigit = false ∧ c ≠ '.' ∧ c ≠ 'e' ∧ c ≠ 'E') : EndsNumber (c :: rest) := by
  rintro _ ⟨⟩
  exact ends

theorem span_digits {digits rest : List Char} (all : ∀ c ∈ digits, c.isDigit = true)
    (ends : EndsNumber rest) :
    (digits ++ rest).takeWhile Char.isDigit = digits ∧
      (digits ++ rest).dropWhile Char.isDigit = rest := by
  have stops : rest.takeWhile Char.isDigit = [] ∧ rest.dropWhile Char.isDigit = rest := by
    cases rest with
    | nil => exact ⟨rfl, rfl⟩
    | cons c rest => simp [(ends c rfl).1]
  rw [List.takeWhile_append_of_pos all, List.dropWhile_append_of_pos all, stops.1, stops.2,
    List.append_nil]
  exact ⟨rfl, rfl⟩

/-- What reading a number does once its digits are told apart from what stands behind them. -/
theorem readDigits_eq {first : Char} {after rest : List Char} {n : Nat}
    (isDigit : first.isDigit = true) (plain : first = '0' → after.head?.any Char.isDigit = false)
    (value : absorb 0 ((first :: after).takeWhile Char.isDigit) = (n, []))
    (others : (first :: after).dropWhile Char.isDigit = rest) (ends : EndsNumber rest) :
    readDigits false (first :: after) = .ok (.integer n, rest) := by
  have noZero : (first = '0' && after.head?.any Char.isDigit) = false := by
    by_cases zero : first = '0'
    · simp [zero, plain zero]
    · simp [zero]
  simp only [readDigits, isDigit, noZero, value, others, Bool.not_true, Bool.false_eq_true,
    if_false, List.isEmpty_nil, Bool.true_and, List.length_nil]
  cases rest with
  | nil => rfl
  | cons c rest =>
      obtain ⟨-, notPoint, notSmall, notLarge⟩ := ends c rfl
      simp [notPoint, notSmall, notLarge, integer]

/-- **A written count is read back as an integer**, with what stands behind it left over. -/
theorem readDigits_decimal {n : Nat} (fits : n < UInt64.size) {rest : List Char}
    (ends : EndsNumber rest) :
    readDigits false (Text.decimal n ++ rest) = .ok (.integer n, rest) := by
  obtain ⟨digits, others⟩ := span_digits (Text.isDigit_of_mem_decimal n) ends
  have value : absorb 0 (Text.decimal n) = (n, []) := by
    have written := Text.decimalValue_decimal n
    unfold Text.decimalValue at written
    rw [absorb_eq _ _ (by rwa [written]), written]
  rw [← digits] at value
  obtain ⟨k, more, bound, isCons, alone⟩ := Text.decimal_eq_cons n
  rw [isCons, List.cons_append] at value others ⊢
  refine readDigits_eq (Text.isDigit_digitChar k bound) ?_ value others ends
  intro zero
  have isZero := Text.digitValue_digitChar k bound
  rw [zero] at isZero
  rw [alone isZero.symm]
  cases rest with
  | nil => rfl
  | cons c rest => simp [(ends c rfl).1]

end Json

end RepoContract
