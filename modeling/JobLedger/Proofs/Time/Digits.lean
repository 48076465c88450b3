import JobLedger.Time.Timestamp
import JobLedger.Proofs.Text.Decimal
import JobLedger.Proofs.Text.Runs

/-!
# Digits of dates and times

A number that is written with enough digits is read back, whatever comes behind it. A fraction of a
second is read as the milliseconds that it was written from, although the zeros at its end are left
out: digits of a fraction have their weights from the left.
-/

namespace JobLedger.Timestamp

open Text

/-! ## The value of digits -/

/-- How many numbers are written by a number of digits. -/
def places : Nat → Nat
  | 0 => 1
  | width + 1 => 10 * places width

/-- Digits in front of others have the weight of as many places. -/
theorem ofDigitChars_eq_add (digits : List Char) (start : Nat) :
    Nat.ofDigitChars 10 digits start =
      start * places digits.length + Nat.ofDigitChars 10 digits 0 := by
  induction digits generalizing start with
  | nil => simp [places]
  | cons c rest ih =>
    have hplaces : places (c :: rest).length = 10 * places rest.length := rfl
    rw [Nat.ofDigitChars_cons, Nat.ofDigitChars_cons, ih, ih (10 * 0 + _), hplaces,
      Nat.mul_zero, Nat.zero_add, Nat.add_mul, Nat.mul_left_comm, Nat.add_assoc, Nat.mul_assoc]

/-- Digits have a value below that of a one with as many zeros. -/
theorem ofDigitChars_lt {digits : List Char} (h : ∀ c ∈ digits, c.isDigit = true) :
    Nat.ofDigitChars 10 digits 0 < places digits.length := by
  induction digits with
  | nil => exact Nat.one_pos
  | cons c rest ih =>
    obtain ⟨hc, hrest⟩ := List.forall_mem_cons.mp h
    have hbounds := isDigit_bounds hc
    have hzero : '0'.toNat = 48 ∧ '9'.toNat = 57 := ⟨rfl, rfl⟩
    have hvalue : c.toNat - '0'.toNat ≤ 9 := by omega
    have hweight := Nat.mul_le_mul_right (places rest.length) hvalue
    have hplaces : places (c :: rest).length = 10 * places rest.length := rfl
    have hlt := ih hrest
    rw [Nat.ofDigitChars_cons, ofDigitChars_eq_add, hplaces, Nat.mul_zero, Nat.zero_add]
    omega

/-- Zeros have the value zero. -/
theorem ofDigitChars_replicate_zero (zeros : Nat) :
    Nat.ofDigitChars 10 (List.replicate zeros '0') 0 = 0 := by
  induction zeros with
  | zero => rfl
  | succ zeros ih =>
    rw [List.replicate_succ, Nat.ofDigitChars_cons]
    exact ih

/-! ## Numbers of a fixed width -/

/-- So many digits that write a number. -/
structure Numeral (width n : Nat) (run : List Char) : Prop where
  length_eq : run.length = width
  isDigit : ∀ c ∈ run, c.isDigit = true
  value_eq : Nat.ofDigitChars 10 run 0 = n

/-- What is read are so many digits, and nothing of what comes behind them. -/
theorem digits?_eq_some_iff {width n : Nat} {text rest : List Char} :
    digits? width text = some (n, rest) ↔ ∃ run, Numeral width n run ∧ text = run ++ rest := by
  constructor
  · intro h
    simp only [digits?] at h
    split at h
    · next hrun =>
      obtain ⟨hlength, hall⟩ := hrun
      obtain ⟨hvalue, hrest⟩ := Prod.mk.inj (Option.some.inj h)
      refine ⟨text.take width, ⟨hlength, List.all_eq_true.mp hall, hvalue⟩, ?_⟩
      rw [← hrest, List.take_append_drop]
    · exact nomatch h
  · intro h
    obtain ⟨run, hrun, htext⟩ := h
    have hall : run.all Char.isDigit = true := List.all_eq_true.mpr hrun.isDigit
    simp only [digits?, htext, List.take_left' hrun.length_eq, List.drop_left' hrun.length_eq]
    rw [if_pos ⟨hrun.length_eq, hall⟩, hrun.value_eq]

/-- A text goes on behind a character that it begins with. -/
theorem after?_eq_some_iff {c : Char} {text rest : List Char} :
    after? c text = some rest ↔ text = c :: rest := by
  cases text with
  | nil => simp [after?]
  | cons d behind =>
    rw [after?]
    split
    · next heq => simp [heq]
    · next hne => simp [hne]

/-- The last digits of a number write it if it has no more of them. -/
theorem numeral_fixed {width n : Nat} (h : n < places width) :
    Numeral width n (fixed width n) := by
  induction width generalizing n with
  | zero =>
    have hzero : n = 0 := Nat.lt_one_iff.mp h
    exact ⟨rfl, fun _ hc => (nomatch hc), hzero.symm⟩
  | succ width ih =>
    have hplaces : places (width + 1) = 10 * places width := rfl
    have hfront := ih (n := n / 10) (by omega)
    have hdigit := Nat.toNat_digitChar_of_lt_ten (Nat.mod_lt n (by decide : 10 > 0))
    have hzero : '0'.toNat = 48 := rfl
    refine ⟨?_, ?_, ?_⟩
    · rw [fixed, List.length_append, hfront.length_eq, List.length_singleton]
    · intro c hc
      rw [fixed, List.mem_append, List.mem_singleton] at hc
      rcases hc with hfirst | hlast
      · exact hfront.isDigit c hfirst
      · rw [hlast, Nat.isDigit_digitChar, decide_eq_true_eq]
        exact Nat.mod_lt n (by decide)
    · rw [fixed, Nat.ofDigitChars_append, hfront.value_eq, Nat.ofDigitChars_cons,
        Nat.ofDigitChars_nil, hdigit]
      omega

/-! ## Fractions of a second -/

/-- At most nine digits of a fraction have the weight of the places that they leave. -/
theorem nanos_of_length_le {digits : List Char} (h : digits.length ≤ 9) :
    nanos digits = Nat.ofDigitChars 10 digits 0 * places (9 - digits.length) := by
  rw [nanos, List.take_append, List.take_of_length_le h, List.take_replicate,
    Nat.min_eq_left (Nat.sub_le 9 _), Nat.ofDigitChars_append, ofDigitChars_eq_add,
    ofDigitChars_replicate_zero, List.length_replicate, Nat.add_zero]

/-- Digits behind a point are a fraction up to the first other character. -/
theorem fraction?_digits {digits zone : List Char} (hne : digits ≠ [])
    (hdigits : ∀ c ∈ digits, c.isDigit = true) (hzone : ∀ c ∈ zone.head?, c.isDigit = false) :
    fraction? ('.' :: (digits ++ zone)) = some (nanos digits, zone) := by
  have htake : (digits ++ zone).takeWhile Char.isDigit = digits := by
    rw [List.takeWhile_append_of_pos hdigits, takeWhile_eq_nil_of_head? hzone, List.append_nil]
  have hdrop : (digits ++ zone).dropWhile Char.isDigit = zone := by
    rw [List.dropWhile_append_of_pos hdigits, dropWhile_eq_self_of_head? hzone]
  have hempty : digits.isEmpty = false := List.isEmpty_eq_false_iff.mpr hne
  simp only [fraction?, htake, hdrop, hempty]
  rfl

/-- A fraction that is written with so many digits is read as milliseconds. -/
theorem fraction?_fixed {width n millis : Nat} (hpos : 0 < width) (hwidth : width ≤ 9)
    (hn : n < places width) (hmillis : n * places (9 - width) = millis * 1000000)
    {zone : List Char} (hzone : ∀ c ∈ zone.head?, c.isDigit = false) :
    fraction? ('.' :: fixed width n ++ zone) = some (millis * 1000000, zone) := by
  have hrun := numeral_fixed hn
  have hne : fixed width n ≠ [] := List.length_pos_iff.mp (hrun.length_eq.symm ▸ hpos)
  rw [List.cons_append, fraction?_digits hne hrun.isDigit hzone,
    nanos_of_length_le (hrun.length_eq.symm ▸ hwidth), hrun.length_eq, hrun.value_eq, hmillis]

/-- The fraction of a second is read as the milliseconds that it was written from. -/
theorem fraction?_fraction {millis : Nat} (h : millis < 1000) :
    fraction? (fraction millis ++ ['Z']) = some (millis * 1000000, ['Z']) := by
  have hzone : ∀ c ∈ ['Z'].head?, c.isDigit = false := by
    intro c hc
    rw [← Option.some.inj hc]
    rfl
  rw [fraction]
  split
  · next hzero => rw [hzero]; rfl
  · split
    · next htenths =>
      have hsplit := Nat.div_add_mod millis 100
      have hn : millis / 100 < places 1 := by change _ < 10; omega
      have hmillis : millis / 100 * places (9 - 1) = millis * 1000000 := by
        change millis / 100 * 100000000 = _
        omega
      exact fraction?_fixed (by decide) (by decide) hn hmillis hzone
    · split
      · next hhundredths =>
        have hsplit := Nat.div_add_mod millis 10
        have hn : millis / 10 < places 2 := by change _ < 100; omega
        have hmillis : millis / 10 * places (9 - 2) = millis * 1000000 := by
          change millis / 10 * 10000000 = _
          omega
        exact fraction?_fixed (by decide) (by decide) hn hmillis hzone
      · have hn : millis < places 3 := h
        exact fraction?_fixed (by decide) (by decide) hn rfl hzone

end JobLedger.Timestamp
