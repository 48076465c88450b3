import JobLedger.Text.Hexadecimal

/-!
# TOML strings

A string stands between quotation marks, in which a backslash begins an escape, or between
apostrophes, where every character is itself. Three marks on either side make a string of several
lines; a line break right behind the first three does not count, and up to two marks may stand right
before the last three.
-/

namespace JobLedger.Toml

open Text

/-- The character may stand as it is in a string or a comment: tabs, and all that is no control
character. -/
def isPlain (c : Char) : Bool := c = '\t' || (0x20 ≤ c.toNat && c.toNat ≠ 0x7F)

/-- A space or a tab. -/
def isSpace (c : Char) : Bool := c = ' ' || c = '\t'

/-- The character of a number, if it is one. -/
def charOfCode? (n : Nat) : Option Char := if n.isValidChar then some (Char.ofNat n) else none

/-- The character written by a given number of hexadecimal digits, and the rest. -/
def readCode (count : Nat) (text : List Char) : Option (Char × List Char) := do
  let digits := text.take count
  if digits.length < count then none
  some (← charOfCode? (← hexadecimal? digits), text.drop count)

/-- The character that an escape behind its backslash stands for, and the rest. -/
def readEscape : List Char → Option (Char × List Char)
  | 'b' :: rest => some ('\x08', rest)
  | 't' :: rest => some ('\t', rest)
  | 'n' :: rest => some ('\n', rest)
  | 'f' :: rest => some ('\x0c', rest)
  | 'r' :: rest => some ('\r', rest)
  | 'e' :: rest => some ('\x1b', rest)
  | '"' :: rest => some ('"', rest)
  | '\\' :: rest => some ('\\', rest)
  | 'x' :: rest => readCode 2 rest
  | 'u' :: rest => readCode 4 rest
  | 'U' :: rest => readCode 8 rest
  | _ => none

/-- The text behind a line break at its start. -/
def afterLineBreak? : List Char → Option (List Char)
  | '\n' :: rest => some rest
  | '\r' :: '\n' :: rest => some rest
  | _ => none

/-- The text without a line break at its start. -/
def dropLineBreak (text : List Char) : List Char := (afterLineBreak? text).getD text

/-- The text behind spaces, tabs and line breaks. -/
def skipLines : List Char → List Char
  | '\r' :: '\n' :: rest => skipLines rest
  | c :: rest => if isSpace c ∨ c = '\n' then skipLines rest else c :: rest
  | [] => []

/-- The text behind an escaped line break, which takes the blanks around it and all empty lines
behind it along. -/
def afterEscapedBreak? (text : List Char) : Option (List Char) :=
  (afterLineBreak? (text.dropWhile isSpace)).map skipLines

/-- One or two more marks behind the last three belong to the string. -/
def closeLines (mark : Char) (seen : List Char) : List Char → String × List Char
  | a :: b :: rest =>
    if a = mark ∧ b = mark then (String.ofList (b :: a :: seen).reverse, rest)
    else if a = mark then (String.ofList (a :: seen).reverse, b :: rest)
    else (String.ofList seen.reverse, a :: b :: rest)
  | [a] => if a = mark then (String.ofList (a :: seen).reverse, []) else
    (String.ofList seen.reverse, [a])
  | [] => (String.ofList seen.reverse, [])

/-- The rest of a string in quotation marks; `seen` holds the characters read so far, latest
first. The fuel bounds the characters. -/
def readBasic : Nat → List Char → List Char → Option (String × List Char)
  | 0, _, _ => none
  | fuel + 1, seen, text =>
    match text with
    | '"' :: rest => some (String.ofList seen.reverse, rest)
    | '\\' :: rest =>
      match readEscape rest with
      | some (c, rest) => readBasic fuel (c :: seen) rest
      | none => none
    | c :: rest => if isPlain c then readBasic fuel (c :: seen) rest else none
    | [] => none

/-- The rest of a string of several lines in quotation marks. -/
def readBasicLines : Nat → List Char → List Char → Option (String × List Char)
  | 0, _, _ => none
  | fuel + 1, seen, text =>
    match text with
    | '"' :: '"' :: '"' :: rest => some (closeLines '"' seen rest)
    | '\\' :: rest =>
      match afterEscapedBreak? rest with
      | some rest => readBasicLines fuel seen rest
      | none =>
        match readEscape rest with
        | some (c, rest) => readBasicLines fuel (c :: seen) rest
        | none => none
    | '\r' :: '\n' :: rest => readBasicLines fuel ('\n' :: '\r' :: seen) rest
    | c :: rest =>
      if isPlain c ∨ c = '\n' then readBasicLines fuel (c :: seen) rest else none
    | [] => none

/-- The rest of a string in apostrophes. -/
def readLiteral (seen : List Char) : List Char → Option (String × List Char)
  | '\'' :: rest => some (String.ofList seen.reverse, rest)
  | c :: rest => if isPlain c then readLiteral (c :: seen) rest else none
  | [] => none

/-- The rest of a string of several lines in apostrophes. -/
def readLiteralLines (seen : List Char) : List Char → Option (String × List Char)
  | '\'' :: '\'' :: '\'' :: rest => some (closeLines '\'' seen rest)
  | '\r' :: '\n' :: rest => readLiteralLines ('\n' :: '\r' :: seen) rest
  | c :: rest => if isPlain c ∨ c = '\n' then readLiteralLines (c :: seen) rest else none
  | [] => none

/-- The string of one line at the start of a text, and the rest. -/
def readOneLine (fuel : Nat) : List Char → Option (String × List Char)
  | '"' :: rest => readBasic fuel [] rest
  | '\'' :: rest => readLiteral [] rest
  | _ => none

/-- The string at the start of a text, and the rest. -/
def readQuoted (fuel : Nat) : List Char → Option (String × List Char)
  | '"' :: '"' :: '"' :: rest => readBasicLines fuel [] (dropLineBreak rest)
  | '\'' :: '\'' :: '\'' :: rest => readLiteralLines [] (dropLineBreak rest)
  | text => readOneLine fuel text

end JobLedger.Toml
