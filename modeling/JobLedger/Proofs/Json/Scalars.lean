import JobLedger.Json.Printer
import JobLedger.Json.Reader

/-!
# Reading strings and numbers that were written

A string reads back as its characters: each character comes back from its escape. An integer reads
back from its numeral if no more digits, no fraction and no exponent follow.
-/

namespace JobLedger.Json

open Text

/-- What may stand between the marks of a text: space, tab, line feed and carriage return. -/
def IsGap (c : Char) : Prop := c = ' ' ∨ c = '\t' ∨ c = '\n' ∨ c = '\r'

/-- What may follow a value that was written: nothing, a blank, or the mark that parts or ends the
items of an array or the members of an object. -/
def Ends (rest : List Char) : Prop := ∀ c ∈ rest.head?, IsGap c ∨ c = ',' ∨ c = ']' ∨ c = '}'

theorem ends_nil : Ends [] := fun _ h => nomatch h

theorem ends_cons {c : Char} (h : IsGap c ∨ c = ',' ∨ c = ']' ∨ c = '}') (rest : List Char) :
    Ends (c :: rest) := by
  intro d hd
  obtain rfl : c = d := by simpa using hd
  exact h

/-- A value may be followed by blanks in front of what may follow it. -/
theorem ends_append {gap rest : List Char} (hgap : ∀ c ∈ gap, IsGap c) (hrest : Ends rest) :
    Ends (gap ++ rest) := by
  cases gap with
  | nil => exact hrest
  | cons c gap => exact ends_cons (.inl (hgap c List.mem_cons_self)) _

/-- A control character comes back from the two hexadecimal digits of its escape. -/
theorem codeUnit?_control {c : Char} (h : c.toNat < 0x20) :
    codeUnit? (some '0') (some '0') (some (hexDigit (c.toNat / 16)))
      (some (hexDigit (c.toNat % 16))) = some c.toNat := by
  have hhigh := hexValue?_hexDigit (n := c.toNat / 16) (by omega)
  have hlow := hexValue?_hexDigit (n := c.toNat % 16) (by omega)
  have hzero : hexValue? '0' = some 0 := by decide
  have hsum : 16 * (c.toNat / 16) + c.toNat % 16 = c.toNat := by omega
  simp [codeUnit?, hexadecimal?, hhigh, hlow, hzero, hsum]

/-- The three ways in which a character stands in a string: behind a backslash as a letter, by its
number, or as it is. -/
theorem escapeChar_cases (c : Char) :
    (∃ letter, escapeChar c = ['\\', letter] ∧ shortEscape? (some letter) = some c) ∨
      (c.toNat < 0x20 ∧ escapeChar c =
        ['\\', 'u', '0', '0', hexDigit (c.toNat / 16), hexDigit (c.toNat % 16)]) ∨
      (escapeChar c = [c] ∧ c ≠ '"' ∧ c ≠ '\\' ∧ ¬ c.toNat < 0x20) := by
  by_cases hletter : c = '"' ∨ c = '\\' ∨ c = '\n' ∨ c = '\r' ∨ c = '\t' ∨ c = '\x08' ∨ c = '\x0c'
  · left
    rcases hletter with rfl | rfl | rfl | rfl | rfl | rfl | rfl <;>
      exact ⟨_, rfl, rfl⟩
  · right
    simp only [not_or] at hletter
    obtain ⟨hquote, hslash, hn, hr, ht, hb, hf⟩ := hletter
    by_cases hcontrol : c.toNat < 0x20
    · left
      refine ⟨hcontrol, ?_⟩
      simp only [escapeChar, hquote, hslash, hn, hr, ht, hb, hf, hcontrol, if_true, if_false]
    · right
      refine ⟨?_, hquote, hslash, hcontrol⟩
      simp only [escapeChar, hquote, hslash, hn, hr, ht, hb, hf, hcontrol, if_false]

/-- A letter behind a backslash is read as the character that it stands for. -/
theorem readString_short {letter c : Char} (h : shortEscape? (some letter) = some c)
    (seen : List Char) (rest : List Letter) :
    readString (some seen) (some '\\' :: some letter :: rest) =
      readString (some (c :: seen)) rest := by
  have hu : letter ≠ 'u' := by
    rintro rfl
    simp [shortEscape?] at h
  rw [readString.eq_def]
  simp [h, hu]

/-- A character that needs no escape is read as it is. -/
theorem readString_plain {c : Char} (hquote : c ≠ '"') (hslash : c ≠ '\\')
    (hcontrol : ¬ c.toNat < 0x20) (seen : List Char) (rest : List Letter) :
    readString (some seen) (some c :: rest) = readString (some (c :: seen)) rest := by
  rw [readString]
  · rw [if_neg hcontrol, Option.map_some]
  · simp [hquote]
  · simp [hslash]
  · simp [hslash]
  · simp [hslash]

/-- Reading a string takes the written form of a character as that character. -/
theorem readString_escapeChar (seen : List Char) (c : Char) (rest : List Letter) :
    readString (some seen) ((escapeChar c).map some ++ rest) =
      readString (some (c :: seen)) rest := by
  rcases escapeChar_cases c with ⟨letter, heq, hshort⟩ | ⟨hcontrol, heq⟩ | ⟨heq, hq, hs, hc⟩
  · rw [heq]
    exact readString_short hshort seen rest
  · have hunit := codeUnit?_control hcontrol
    have hsmall : c.toNat < 0xD800 ∨ 0xDFFF < c.toNat := .inl (by omega)
    rw [heq]
    simp only [List.map_cons, List.map_nil, List.cons_append, List.nil_append]
    rw [readString]
    simp only [hunit, if_pos hsmall, Char.ofNat_toNat, Option.map_some]
  · rw [heq]
    exact readString_plain hq hs hc seen rest

/-- Reading a string up to its closing quotation mark gives its characters. -/
theorem readString_escaped (seen text : List Char) (rest : List Char) :
    readString (some seen) ((text.flatMap escapeChar ++ '"' :: rest).map some) =
      some (some (String.ofList (seen.reverse ++ text)), rest.map some) := by
  induction text generalizing seen with
  | nil => simp [readString]
  | cons c text ih =>
    have hsplit : (((c :: text).flatMap escapeChar ++ '"' :: rest).map some : List Letter) =
        (escapeChar c).map some ++ (text.flatMap escapeChar ++ '"' :: rest).map some := by
      simp
    rw [hsplit, readString_escapeChar, ih]
    simp

/-- A string that was written begins with a quotation mark and reads back from behind it. -/
theorem readString_quote (s : String) (rest : List Char) :
    ∃ tail, quote s ++ rest = '"' :: tail ∧
      readString (some []) (tail.map some) = some (some s, rest.map some) := by
  refine ⟨s.toList.flatMap escapeChar ++ '"' :: rest, by simp [quote], ?_⟩
  simpa using readString_escaped [] s.toList rest

/-- The first digit of a positive number is no zero. -/
theorem head?_toDigits_ne_zero {n : Nat} (h : 0 < n) : (Nat.toDigits 10 n).head? ≠ some '0' := by
  induction n using Nat.strongRecOn with
  | _ n ih =>
    rw [Nat.toDigits_eq_if (by decide)]
    split
    · simp [Nat.ne_of_gt h]
    · rename_i hten
      have hdiv : 0 < n / 10 := by omega
      rw [List.head?_append, Option.or_of_isSome (by simp)]
      exact ih (n / 10) (by omega) hdiv

/-- A numeral has no zero in front of other digits. -/
theorem no_leading_zero (n : Nat) :
    ((Nat.toDigits 10 n).head? == some '0' && (Nat.toDigits 10 n).length != 1) = false := by
  rcases Nat.eq_zero_or_pos n with rfl | hpos
  · simp
  · have hne := head?_toDigits_ne_zero hpos
    simp [hne]

/-- A numeral consists of digits. -/
theorem isDigit_of_mem_toDigits {n : Nat} {c : Char} (h : c ∈ Nat.toDigits 10 n) :
    c.isDigit = true :=
  Nat.isDigit_of_mem_toDigits (by decide) (by decide) h

/-- What may follow a value does not go on with a numeral. -/
theorem Ends.not_digit {rest : List Char} (h : Ends rest) : ∀ c ∈ rest.head?, c.isDigit = false := by
  intro c hc
  rcases h c hc with (rfl | rfl | rfl | rfl) | rfl | rfl | rfl <;> decide

/-- The digits in front of what follows a value are those of the numeral. -/
theorem takeWhile_digits {n : Nat} {rest : List Char} (h : Ends rest) :
    ((Nat.toDigits 10 n ++ rest).map some).takeWhile isDigitLetter =
      (Nat.toDigits 10 n).map some := by
  have hdigits : ∀ letter ∈ (Nat.toDigits 10 n).map some, isDigitLetter letter = true := by
    intro letter hmem
    obtain ⟨c, hc, rfl⟩ := List.mem_map.mp hmem
    exact isDigit_of_mem_toDigits hc
  rw [List.map_append, List.takeWhile_append_of_pos hdigits]
  cases rest with
  | nil => simp
  | cons c rest =>
    have hc : isDigitLetter (some c) = false := h.not_digit c rfl
    simp [hc]

/-- Behind the digits of a numeral stands what ends it. -/
theorem dropWhile_digits {n : Nat} {rest : List Char} (h : Ends rest) :
    ((Nat.toDigits 10 n ++ rest).map some).dropWhile isDigitLetter = rest.map some := by
  have hdigits : ∀ letter ∈ (Nat.toDigits 10 n).map some, isDigitLetter letter = true := by
    intro letter hmem
    obtain ⟨c, hc, rfl⟩ := List.mem_map.mp hmem
    exact isDigit_of_mem_toDigits hc
  rw [List.map_append, List.dropWhile_append_of_pos hdigits]
  cases rest with
  | nil => rfl
  | cons c rest =>
    have hc : isDigitLetter (some c) = false := h.not_digit c rfl
    simp [hc]

/-- A numeral behind its sign is read as the number. Zero has no negative form. -/
theorem readMagnitude_toDigits (negative : Bool) {n : Nat} (hsign : negative = true → n ≠ 0)
    {rest : List Char} (h : Ends rest) :
    readMagnitude negative ((Nat.toDigits 10 n ++ rest).map some) =
      some (.int (if negative then -(n : Int) else n), rest.map some) := by
  have hnonempty : (Nat.toDigits 10 n).isEmpty = false := by
    simp [Nat.toDigits_ne_nil]
  have htext : lettersText ((Nat.toDigits 10 n).map some) = Nat.toDigits 10 n := by
    simp [lettersText, List.filterMap_map]
  have hzero : ¬ (negative = true ∧ n = 0) := fun hboth => hsign hboth.1 hboth.2
  have hvalue := Nat.ofDigitChars_ten_toDigits (n := n)
  unfold readMagnitude
  simp only [takeWhile_digits h, dropWhile_digits h, htext, hnonempty, no_leading_zero n,
    Bool.false_or, Bool.false_eq_true, if_false, hvalue]
  cases rest with
  | nil => simp [hzero]
  | cons c rest =>
    rcases h c rfl with (rfl | rfl | rfl | rfl) | rfl | rfl | rfl <;> simp [hzero]

end JobLedger.Json
