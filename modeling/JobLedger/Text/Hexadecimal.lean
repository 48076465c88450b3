/-!
# Hexadecimal digits

Digits to the base sixteen are written in lower case and read in either case.
-/

namespace JobLedger.Text

/-- The hexadecimal digit of a number below sixteen. -/
def hexDigit (n : Nat) : Char := Nat.digitChar n

/-- The value of a hexadecimal digit in either case. -/
def hexValue? (c : Char) : Option Nat :=
  if c.isDigit then some (c.toNat - 48)
  else if 'a' ≤ c ∧ c ≤ 'f' then some (c.toNat - 87)
  else if 'A' ≤ c ∧ c ≤ 'F' then some (c.toNat - 55)
  else none

/-- The number written by hexadecimal digits. -/
def hexadecimal? (digits : List Char) : Option Nat :=
  digits.foldlM (fun n c => (hexValue? c).map fun d => 16 * n + d) 0

theorem hexValue?_hexDigit {n : Nat} (h : n < 16) : hexValue? (hexDigit n) = some n := by
  have : ∀ n : Fin 16, hexValue? (hexDigit n) = some n.val := by decide
  exact this ⟨n, h⟩

end JobLedger.Text
