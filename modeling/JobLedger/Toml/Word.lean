import JobLedger.Text.Cut
import JobLedger.Text.Hexadecimal
import JobLedger.Time.Timestamp
import JobLedger.Toml.Value

/-!
# TOML words

The values that are written without marks: numbers, booleans and moments. A word that begins like a
number is held to the form of its digits, signs and underscores only. Which number it writes comes
out where the number is needed, so that a word of good form may write no number at all.
-/

namespace JobLedger.Toml

open Text Time

/-- The character is a digit to a base. -/
def isDigitOf (base : Nat) (c : Char) : Bool := (hexValue? c).any fun d => d < base

/-- The underscores of a word stand between digits: none comes first or last, none follows another,
and each has a digit on both sides. A single character in front of an underscore may be of any
sort, and so may all but the first behind the last one. -/
def isJoined (isDigit : Char → Bool) (word : List Char) : Bool :=
  match parts '_' word with
  | first :: second :: others =>
    !first.isEmpty && (second :: others).all (fun part => part.head?.any isDigit) &&
      (first :: second :: others).dropLast.all fun part =>
        part.length ≤ 1 || part.getLast?.any isDigit
  | _ => true

/-- A word without its underscores. -/
def withoutUnderscores (word : List Char) : List Char := word.filter (· ≠ '_')

/-- The number of digits to a base. -/
def numeral? (base : Nat) (digits : List Char) : Option Nat :=
  if !digits.isEmpty && digits.all (isDigitOf base) then
    some (digits.foldl (fun n c => base * n + (hexValue? c).getD 0) 0)
  else none

/-- The text behind a sign, if there is one. -/
def unsigned : List Char → Option Char × List Char
  | '+' :: rest => (some '+', rest)
  | '-' :: rest => (some '-', rest)
  | text => (none, text)

/-- The number with a sign. -/
def withSign (sign : Option Char) (n : Nat) : Int := if sign = some '-' then -(n : Int) else n

/-- The value of a number; a word that writes none has another value. -/
def numberValue (i : Option Int) : Value := (i.map Value.int).getD .other

/-- The value of a word that is marked with a base, behind the mark. -/
def basedValue? (base : Nat) (digits : List Char) : Option Value :=
  if digits.all (fun c => isDigitOf base c || c = '_') && isJoined (isDigitOf 16) digits then
    some (numberValue ((numeral? base (withoutUnderscores digits)).map Int.ofNat))
  else none

/-- The text behind digits and underscores, among them at least one digit. If leading zeros are not
allowed, a zero in front has to be the only digit. -/
def afterDigits? (zeros : Bool) (text : List Char) : Option (List Char) :=
  let run := text.takeWhile fun c => c.isDigit || c = '_'
  let count := (run.filter Char.isDigit).length
  if count = 0 ∨ (1 < count ∧ !zeros ∧ text.head? = some '0') then none
  else some (text.drop run.length)

/-- The text behind the exponent at its start, if it has one. -/
def afterExponent? : List Char → Option (List Char)
  | 'e' :: rest => afterDigits? true (unsigned rest).2
  | 'E' :: rest => afterDigits? true (unsigned rest).2
  | text => some text

/-- A text without a sign has the form of a float: digits, then a fraction, an exponent or both. -/
def isFloatForm (text : List Char) : Bool :=
  match afterDigits? false text with
  | some ('.' :: rest) => (afterDigits? true rest).bind afterExponent? == some []
  | some rest => afterExponent? rest == some []
  | none => false

/-- The text behind a date. -/
def afterDate? (text : List Char) : Option (List Char) := do
  let (year, text) ← Timestamp.digits? 4 text
  let text ← Timestamp.after? '-' text
  let (month, text) ← Timestamp.digits? 2 text
  let text ← Timestamp.after? '-' text
  let (day, text) ← Timestamp.digits? 2 text
  if (Date.mk year month day).Valid then some text else none

/-- The text behind a time of day; its seconds may be missing. -/
def afterTime? (text : List Char) : Option (List Char) := do
  let (hour, text) ← Timestamp.digits? 2 text
  let text ← Timestamp.after? ':' text
  let (minute, text) ← Timestamp.digits? 2 text
  if hour > 23 ∨ minute > 59 then none
  match text with
  | ':' :: text =>
    let (second, text) ← Timestamp.digits? 2 text
    if second > 60 then none
    let (_, text) ← Timestamp.fraction? text
    some text
  | text => some text

/-- A word writes a moment: a date, a time of day, or both with or without an offset. -/
def isMomentWord (text : List Char) : Bool :=
  match afterDate? text with
  | none => afterTime? text == some []
  | some [] => true
  | some (separator :: rest) =>
    (separator == 'T' || separator == 't' || separator == ' ') &&
      match afterTime? rest with
      | none => false
      | some rest => rest.isEmpty || (Timestamp.offset? rest).isSome

/-- The value of a word that has a digit or an underscore behind its sign. -/
def decimalValue? (word : List Char) : Option Value :=
  let (sign, magnitude) := unsigned word
  match magnitude.dropWhile Char.isDigit with
  | [] =>
    if magnitude.head? = some '0' ∧ magnitude ≠ ['0'] then none
    else some (numberValue ((numeral? 10 magnitude).map (withSign sign)))
  | mark :: rest =>
    if mark = '-' ∨ mark = ':' then if isMomentWord word then some .other else none
    else if (mark :: rest).contains ' ' then none
    else if (mark :: rest).any fun c => c = '.' || c = 'e' || c = 'E' then
      if isFloatForm magnitude && isJoined Char.isDigit word then some .other else none
    else if mark = '_' ∧ magnitude.head? ≠ some '0' ∧ isJoined (isDigitOf 16) word then
      some (numberValue ((numeral? 10 (withoutUnderscores magnitude)).map (withSign sign)))
    else none

/-- The words that are values by themselves. -/
def namedWords : List String := ["true", "false", "inf", "+inf", "-inf", "nan", "+nan", "-nan"]

/-- The value that a word writes. A base other than ten is marked, and takes no sign. -/
def wordValue? : List Char → Option Value
  | '0' :: 'x' :: digits => basedValue? 16 digits
  | '0' :: 'o' :: digits => basedValue? 8 digits
  | '0' :: 'b' :: digits => basedValue? 2 digits
  | word =>
    if namedWords.contains (String.ofList word) then some .other
    else
      match (unsigned word).2 with
      | [] => none
      | c :: _ => if c.isDigit || c = '_' then decimalValue? word else none

/-- The character may stand in a word. -/
def isWordChar (c : Char) : Bool := !("=,[]\x7b\x7d# \t\r\n".toList.contains c)

/-- The word at the start of a text and the rest. A time behind a date and a space belongs to the
word. -/
def cutWord (text : List Char) : List Char × List Char :=
  let word := text.takeWhile isWordChar
  let rest := text.dropWhile isWordChar
  match rest with
  | ' ' :: c :: more =>
    if c.isDigit ∧ afterDate? word = some [] then
      (word ++ ' ' :: (c :: more).takeWhile isWordChar, (c :: more).dropWhile isWordChar)
    else (word, rest)
  | _ => (word, rest)

/-- The value of the word at the start of a text, and the rest. -/
def readWord (text : List Char) : Option (Value × List Char) :=
  let (word, rest) := cutWord text
  (wordValue? word).map fun value => (value, rest)

end JobLedger.Toml
