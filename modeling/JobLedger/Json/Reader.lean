import JobLedger.Json.Value
import JobLedger.Text.Hexadecimal
import JobLedger.Text.Utf8

/-!
# Reading JSON

The value of a JSON text given in octets. The grammar is strict: no byte order mark, no comments, no
comma behind the last item, nothing but blanks around the value. Strings that are no Unicode text
and numbers that are no integers are well formed, and read as `Value.other`. Values may nest to any
depth.
-/

namespace JobLedger.Json

open Text

/-- The text behind its leading blanks: space, tab, line feed and carriage return. -/
def skipBlanks : List Letter → List Letter
  | [] => []
  | letter :: rest =>
    if letter = some ' ' ∨ letter = some '\t' ∨ letter = some '\n' ∨ letter = some '\r' then
      skipBlanks rest
    else letter :: rest

/-- The letter is a decimal digit. -/
def isDigitLetter : Letter → Bool
  | some c => c.isDigit
  | none => false

/-- The code unit written by four hexadecimal digits. -/
def codeUnit? (a b c d : Letter) : Option Nat := do
  hexadecimal? [← a, ← b, ← c, ← d]

/-- The character that a one-letter escape stands for. -/
def shortEscape? : Letter → Option Char
  | some '"' => some '"'
  | some '\\' => some '\\'
  | some '/' => some '/'
  | some 'b' => some '\x08'
  | some 'f' => some '\x0c'
  | some 'n' => some '\n'
  | some 'r' => some '\r'
  | some 't' => some '\t'
  | _ => none

/-- The character that two surrogate code units stand for. -/
def joinSurrogates (high low : Nat) : Char :=
  Char.ofNat (0x10000 + (high - 0xD800) * 0x400 + (low - 0xDC00))

/-- The rest of a string behind its opening quotation mark: its characters, if it is Unicode text,
and what follows it. `seen` holds the characters read so far, latest first, as long as they are
text. -/
def readString (seen : Option (List Char)) :
    List Letter → Option (Option String × List Letter)
  | [] => none
  | some '"' :: rest => some (seen.map fun chars => String.ofList chars.reverse, rest)
  | some '\\' :: some 'u' :: a :: b :: c :: d :: rest =>
    match codeUnit? a b c d with
    | none => none
    | some unit =>
      if unit < 0xD800 ∨ 0xDFFF < unit then
        readString (seen.map (Char.ofNat unit :: ·)) rest
      else if unit < 0xDC00 then
        match rest with
        | some '\\' :: some 'u' :: a' :: b' :: c' :: d' :: rest' =>
          match codeUnit? a' b' c' d' with
          | none => none
          | some low =>
            if 0xDC00 ≤ low ∧ low ≤ 0xDFFF then
              readString (seen.map (joinSurrogates unit low :: ·)) rest'
            else readString none (some '\\' :: some 'u' :: a' :: b' :: c' :: d' :: rest')
        | rest => readString none rest
      else readString none rest
  | some '\\' :: letter :: rest =>
    match shortEscape? letter with
    | some c => readString (seen.map (c :: ·)) rest
    | none => none
  | [some '\\'] => none
  | some c :: rest =>
    if c.toNat < 0x20 then none else readString (seen.map (c :: ·)) rest
  | none :: rest => readString none rest
termination_by text => text.length

/-- The characters of letters that all are characters. -/
def lettersText (letters : List Letter) : List Char := letters.filterMap id

/-- The text behind a fraction, if there is one; a point without digits is refused. -/
def skipFraction : List Letter → Option (List Letter)
  | some '.' :: rest =>
    if (rest.takeWhile isDigitLetter).isEmpty then none
    else some (rest.dropWhile isDigitLetter)
  | text => some text

/-- The text behind the sign of an exponent. -/
def skipSign : List Letter → List Letter
  | some '+' :: rest => rest
  | some '-' :: rest => rest
  | text => text

/-- The text behind an exponent, if there is one; a mark without digits is refused. -/
def skipExponent : List Letter → Option (List Letter)
  | some 'e' :: rest | some 'E' :: rest =>
    let digits := skipSign rest
    if (digits.takeWhile isDigitLetter).isEmpty then none
    else some (digits.dropWhile isDigitLetter)
  | text => some text

/-- The number at the start of a text, its sign already read. The integer part has no leading
zeros; with a fraction or an exponent behind it the number is no integer. -/
def readMagnitude (negative : Bool) (text : List Letter) : Option (Value × List Letter) :=
  let digits := lettersText (text.takeWhile isDigitLetter)
  if digits.isEmpty || (digits.head? == some '0' && digits.length != 1) then none
  else
    match text.dropWhile isDigitLetter with
    | some '.' :: rest =>
      ((skipFraction (some '.' :: rest)).bind skipExponent).map fun rest => (.other, rest)
    | some 'e' :: rest => (skipExponent (some 'e' :: rest)).map fun rest => (.other, rest)
    | some 'E' :: rest => (skipExponent (some 'E' :: rest)).map fun rest => (.other, rest)
    | rest =>
      let magnitude := Nat.ofDigitChars 10 digits 0
      if negative ∧ magnitude = 0 then some (.other, rest)
      else some (.int (if negative then -(magnitude : Int) else magnitude), rest)

/-- The text behind the given characters. -/
def expect? : List Char → List Letter → Option (List Letter)
  | [], text => some text
  | c :: cs, letter :: text => if letter = some c then expect? cs text else none
  | _ :: _, [] => none

/-- The object with the given members; without a text for each name it is no object of use. -/
def objectOf (members : List (Option String × Value)) : Value :=
  match members.mapM fun member => member.1.map fun name => (name, member.2) with
  | some members => .object members
  | none => .other

mutual

/-- The value at the start of a text and what follows it. -/
def readValue : Nat → List Letter → Option (Value × List Letter)
  | 0, _ => none
  | fuel + 1, text =>
    match skipBlanks text with
    | some 'n' :: rest => (expect? ['u', 'l', 'l'] rest).map fun rest => (.null, rest)
    | some 't' :: rest => (expect? ['r', 'u', 'e'] rest).map fun rest => (.bool true, rest)
    | some 'f' :: rest => (expect? ['a', 'l', 's', 'e'] rest).map fun rest => (.bool false, rest)
    | some '"' :: rest =>
      (readString (some []) rest).map fun read =>
        ((read.1.map Value.text).getD .other, read.2)
    | some '[' :: rest =>
      match skipBlanks rest with
      | some ']' :: rest => some (.array [], rest)
      | rest => readItems fuel [] rest
    | some '{' :: rest =>
      match skipBlanks rest with
      | some '}' :: rest => some (.object [], rest)
      | rest => readMembers fuel [] rest
    | some '-' :: rest => readMagnitude true rest
    | rest => readMagnitude false rest

/-- The rest of an array from an item on; `seen` holds the items read so far, latest first. -/
def readItems : Nat → List Value → List Letter → Option (Value × List Letter)
  | 0, _, _ => none
  | fuel + 1, seen, text =>
    match readValue fuel text with
    | none => none
    | some (item, rest) =>
      match skipBlanks rest with
      | some ',' :: rest => readItems fuel (item :: seen) rest
      | some ']' :: rest => some (.array (item :: seen).reverse, rest)
      | _ => none

/-- The rest of an object from a member on; `seen` holds the members read so far, latest first. -/
def readMembers :
    Nat → List (Option String × Value) → List Letter → Option (Value × List Letter)
  | 0, _, _ => none
  | fuel + 1, seen, text =>
    match skipBlanks text with
    | some '"' :: rest =>
      match readString (some []) rest with
      | none => none
      | some (name, rest) =>
        match skipBlanks rest with
        | some ':' :: rest =>
          match readValue fuel rest with
          | none => none
          | some (value, rest) =>
            match skipBlanks rest with
            | some ',' :: rest => readMembers fuel ((name, value) :: seen) rest
            | some '}' :: rest => some (objectOf ((name, value) :: seen).reverse, rest)
            | _ => none
        | _ => none
    | _ => none

end

/-- The value that letters write, blanks around it allowed. Each letter opens at most one array or
object and begins at most one item, so twice the number of letters bounds the steps. -/
def ofLetters? (text : List Letter) : Option Value :=
  match readValue (2 * text.length + 2) text with
  | some (value, rest) => if (skipBlanks rest).isEmpty then some value else none
  | none => none

/-- The value of a JSON text. -/
def read? (source : Octets) : Option Value := ofLetters? (letters source)

end JobLedger.Json
