/-!
# Signed words

Moments, row numbers and the cells of counts are integers of 64 bits with a sign. So are the numbers
of rows that a statement skips and returns.
-/

namespace JobLedger

/-- The first integer that does not fit in 64 bits with a sign. -/
abbrev signedLimit : Int := 9223372036854775808

/-- The integer fits in 64 bits with a sign. -/
def FitsSigned (i : Int) : Prop := -signedLimit ≤ i ∧ i < signedLimit

instance (i : Int) : Decidable (FitsSigned i) := inferInstanceAs (Decidable (_ ∧ _))

/-- The word of an integer that fits in it. -/
def int64? (i : Int) : Option Int64 := if FitsSigned i then some (Int64.ofInt i) else none

/-- A number, or the greatest integer of 64 bits with a sign in place of a greater one. -/
def saturate (n : Nat) : Nat := min n (signedLimit - 1).toNat

/-- Up to what fits in a word, a saturated number counts as the number itself. -/
theorem min_saturate {n k : Nat} (h : (k : Int) < signedLimit) : min (saturate n) k = min n k := by
  rw [saturate]
  omega

theorem fitsSigned_toInt (word : Int64) : FitsSigned word.toInt :=
  ⟨word.le_toInt, word.toInt_lt⟩

theorem int64?_toInt (word : Int64) : int64? word.toInt = some word := by
  rw [int64?, if_pos (fitsSigned_toInt word), Int64.ofInt_toInt]

theorem toInt_of_int64? {i : Int} {word : Int64} (h : int64? i = some word) :
    word.toInt = i := by
  unfold int64? at h
  split at h
  · rename_i hi
    cases h
    exact Int64.toInt_ofInt_of_le hi.1 hi.2
  · cases h

end JobLedger
