/-!
# Decimal numerals

Numbers are written in the fewest decimal digits, and read back from any nonempty run of decimal
digits; leading zeros do not change the number. Reading what was written gives the number again.
-/

namespace JobLedger.Text

/-- The number written by a nonempty run of decimal digits. -/
def decimal? (digits : List Char) : Option Nat :=
  if digits.isEmpty || !digits.all Char.isDigit then none
  else some (Nat.ofDigitChars 10 digits 0)

theorem decimal?_toDigits (n : Nat) : decimal? (Nat.toDigits 10 n) = some n := by
  have hne : (Nat.toDigits 10 n).isEmpty = false := by
    cases h : Nat.toDigits 10 n with
    | nil => exact absurd h Nat.toDigits_ne_nil
    | cons _ _ => rfl
  have hall : (Nat.toDigits 10 n).all Char.isDigit = true :=
    List.all_eq_true.2 fun _ hc => Nat.isDigit_of_mem_toDigits (by decide) (by decide) hc
  simp [decimal?, hne, hall, Nat.ofDigitChars_ten_toDigits]

theorem decimal?_repr (n : Nat) : decimal? n.repr.toList = some n := by
  rw [Nat.toList_repr, decimal?_toDigits]

/-- A numeral does not hold a separator. -/
theorem not_mem_repr {sep : Char} (hsep : sep.isDigit = false) (n : Nat) :
    sep ∉ n.repr.toList := by
  intro hmem
  rw [Nat.toList_repr] at hmem
  have hdigit := Nat.isDigit_of_mem_toDigits (by decide) (by decide) hmem
  exact absurd hdigit (by simp [hsep])

/-- The numeral of an integer: a minus sign before the magnitude of a negative one. -/
def integer (i : Int) : String :=
  if i < 0 then "-" ++ i.natAbs.repr else i.natAbs.repr

end JobLedger.Text
