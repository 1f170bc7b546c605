/-
# RepoContract.Text.Decimal: natural numbers in decimal

`decimal` writes a number without leading zeros, `decimalValue` reads a run of digits.
-/
namespace RepoContract.Text

set_option autoImplicit false

/-- The digit of a number below ten. -/
def digitChar (n : Nat) : Char :=
  Char.ofNat (0x30 + n)

/-- The value of a digit. -/
def digitValue (c : Char) : Nat :=
  c.toNat - 0x30

/-- The decimal digits of a number, most significant first. -/
def decimal (n : Nat) : List Char :=
  if n < 10 then [digitChar n] else decimal (n / 10) ++ [digitChar (n % 10)]

/-- The number a run of digits stands for. -/
def decimalValue (digits : List Char) : Nat :=
  digits.foldl (fun value c => value * 10 + digitValue c) 0

theorem digitValue_digitChar : ∀ n, n < 10 → digitValue (digitChar n) = n := by decide

theorem decimalValue_decimal (n : Nat) : decimalValue (decimal n) = n := by
  fun_induction decimal n with
  | case1 n h => simp [decimalValue, digitValue_digitChar n h]
  | case2 n h ih =>
    rw [decimalValue, List.foldl_append, ← decimalValue, ih]
    simp only [List.foldl_cons, List.foldl_nil, digitValue_digitChar _ (Nat.mod_lt n (by decide))]
    omega

end RepoContract.Text
