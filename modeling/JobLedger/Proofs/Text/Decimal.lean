import JobLedger.Text.Decimal

/-!
# Numerals and zeros in front

A run of digits that does not begin with a zero is the numeral of the number that it writes. The
texts that are read as a number are its numeral with any number of zeros in front, and no others.
-/

namespace JobLedger.Text

theorem isDigit_bounds {c : Char} (hc : c.isDigit = true) :
    '0'.toNat ≤ c.toNat ∧ c.toNat ≤ '9'.toNat := by
  rw [Char.isDigit, Bool.and_eq_true, decide_eq_true_eq, decide_eq_true_eq] at hc
  exact ⟨UInt32.le_iff_toNat_le.mp hc.1, UInt32.le_iff_toNat_le.mp hc.2⟩

/-- A digit is the numeral of its value. -/
theorem toDigits_digitValue {c : Char} (hc : c.isDigit = true) :
    Nat.toDigits 10 (c.toNat - '0'.toNat) = [c] := by
  have hbounds := isDigit_bounds hc
  have hzero : '0'.toNat = 48 ∧ '9'.toNat = 57 := ⟨rfl, rfl⟩
  have hlt : c.toNat - '0'.toNat < 10 := by omega
  rw [Nat.toDigits_of_lt_base hlt, List.singleton_inj, ← Char.toNat_inj,
    Nat.toNat_digitChar_of_lt_ten hlt]
  omega

/-- Digits behind a numeral write the number that the whole is the numeral of. -/
theorem toDigits_ofDigitChars {digits : List Char} (hdigits : ∀ c ∈ digits, c.isDigit = true)
    {n : Nat} (hn : 0 < n) :
    Nat.toDigits 10 (Nat.ofDigitChars 10 digits n) = Nat.toDigits 10 n ++ digits := by
  induction digits generalizing n with
  | nil => rw [Nat.ofDigitChars_nil, List.append_nil]
  | cons c rest ih =>
    obtain ⟨hc, hrest⟩ := List.forall_mem_cons.mp hdigits
    have hlt : c.toNat - '0'.toNat < 10 := by
      have hbounds := isDigit_bounds hc
      have hzero : '0'.toNat = 48 ∧ '9'.toNat = 57 := ⟨rfl, rfl⟩
      omega
    rw [Nat.ofDigitChars_cons, ih hrest (by omega),
      ← Nat.toDigits_append_toDigits (by decide) hn hlt, toDigits_digitValue hc, List.append_assoc,
      List.singleton_append]

/-- A run of digits without a zero in front is the numeral of its number. -/
theorem eq_toDigits_of_decimal? {digits : List Char} {n : Nat} (h : decimal? digits = some n)
    (hhead : digits.head? ≠ some '0') : digits = Nat.toDigits 10 n := by
  cases digits with
  | nil => exact nomatch h
  | cons c rest =>
    rw [decimal?, List.isEmpty_cons, Bool.false_or] at h
    split at h
    · cases h
    next hall =>
    rw [Bool.not_eq_true', Bool.not_eq_false, List.all_eq_true] at hall
    obtain ⟨hc, hrest⟩ := List.forall_mem_cons.mp hall
    have hpos : 0 < c.toNat - '0'.toNat := by
      have hbounds := isDigit_bounds hc
      have hne : c.toNat ≠ '0'.toNat := fun heq =>
        hhead (congrArg some (Char.toNat_inj.mp heq))
      omega
    rw [← Option.some.inj h, Nat.ofDigitChars_cons, Nat.mul_zero, Nat.zero_add,
      toDigits_ofDigitChars hrest hpos, toDigits_digitValue hc, List.singleton_append]

/-- The numeral of a positive number does not begin with a zero. -/
theorem head?_toDigits_ne_zero {n : Nat} (hn : 0 < n) : (Nat.toDigits 10 n).head? ≠ some '0' := by
  induction n using Nat.strongRecOn with
  | ind n ih =>
    by_cases hlt : n < 10
    · rw [Nat.toDigits_of_lt_base hlt, List.head?_cons, Ne, Option.some.injEq, ← Char.toNat_inj,
        Nat.toNat_digitChar_of_lt_ten hlt]
      have hzero : '0'.toNat = 48 := rfl
      omega
    · have hten : 0 < n / 10 := by omega
      have hsplit : Nat.toDigits 10 n = Nat.toDigits 10 (n / 10) ++ Nat.toDigits 10 (n % 10) := by
        rw [Nat.toDigits_append_toDigits (by decide) hten (Nat.mod_lt n (by decide)),
          Nat.div_add_mod]
      have hhead := ih (n / 10) (by omega) hten
      obtain ⟨c, rest, hdigits⟩ := List.exists_cons_of_ne_nil (Nat.toDigits_ne_nil (n := n / 10))
      rw [hdigits] at hhead hsplit
      rw [hsplit]
      exact hhead

theorem decimal?_eq_some_iff {digits : List Char} {n : Nat} :
    decimal? digits = some n ↔
      digits ≠ [] ∧ (∀ c ∈ digits, c.isDigit = true) ∧ Nat.ofDigitChars 10 digits 0 = n := by
  cases digits with
  | nil => simp [decimal?]
  | cons c rest => simp [decimal?, and_assoc]

/-- A text that is read as a number holds no separator. -/
theorem not_mem_of_decimal? {sep : Char} (hsep : sep.isDigit = false) {digits : List Char} {n : Nat}
    (h : decimal? digits = some n) : sep ∉ digits := by
  intro hmem
  have hdigit := (decimal?_eq_some_iff.mp h).2.1 sep hmem
  exact absurd hdigit (by simp [hsep])

/-- A zero in front of digits makes no difference. -/
theorem decimal?_zero_cons {digits : List Char} (hne : digits ≠ []) :
    decimal? ('0' :: digits) = decimal? digits := by
  have hzero : '0'.isDigit = true := by decide
  have hvalue : Nat.ofDigitChars 10 ('0' :: digits) 0 = Nat.ofDigitChars 10 digits 0 := by
    rw [Nat.ofDigitChars_cons, Nat.mul_zero, Nat.zero_add, Nat.sub_self]
  have hempty : digits.isEmpty = false := List.isEmpty_eq_false_iff.mpr hne
  simp only [decimal?, List.isEmpty_cons, List.all_cons, hzero, hvalue, hempty, Bool.true_and]

/-- The texts of a number are its numeral with any number of zeros in front. -/
theorem decimal?_eq_some_iff_zeros {digits : List Char} {n : Nat} :
    decimal? digits = some n ↔
      ∃ zeros, digits = List.replicate zeros '0' ++ Nat.toDigits 10 n := by
  constructor
  · intro h
    induction digits with
    | nil => exact nomatch h
    | cons c rest ih =>
      by_cases hc : c = '0'
      · subst hc
        by_cases hrest : rest = []
        · subst hrest
          obtain rfl : 0 = n := Option.some.inj h
          exact ⟨0, rfl⟩
        · rw [decimal?_zero_cons hrest] at h
          obtain ⟨zeros, hzeros⟩ := ih h
          exact ⟨zeros + 1, by rw [hzeros, List.replicate_succ, List.cons_append]⟩
      · have hhead : (c :: rest).head? ≠ some '0' := by simpa using hc
        exact ⟨0, eq_toDigits_of_decimal? h hhead⟩
  · rintro ⟨zeros, rfl⟩
    induction zeros with
    | zero => exact decimal?_toDigits n
    | succ zeros ih =>
      have hne : List.replicate zeros '0' ++ Nat.toDigits 10 n ≠ [] :=
        List.append_ne_nil_of_right_ne_nil _ Nat.toDigits_ne_nil
      rw [List.replicate_succ, List.cons_append, decimal?_zero_cons hne, ih]

end JobLedger.Text
