import JobLedger.Json.Value
import JobLedger.Text.Decimal
import JobLedger.Text.Hexadecimal

/-!
# Writing JSON

A value has one compact form, without blanks, and one form for reading, with two blanks of indent
for each level and every item and member on a line of its own. In a string the quotation mark, the
backslash and the characters below U+0020 are escaped, the latter by a letter where there is one.
-/

namespace JobLedger.Json

open Text

/-- A character as it stands in a string. -/
def escapeChar (c : Char) : List Char :=
  if c = '"' then ['\\', '"']
  else if c = '\\' then ['\\', '\\']
  else if c = '\n' then ['\\', 'n']
  else if c = '\r' then ['\\', 'r']
  else if c = '\t' then ['\\', 't']
  else if c = '\x08' then ['\\', 'b']
  else if c = '\x0c' then ['\\', 'f']
  else if c.toNat < 0x20 then
    ['\\', 'u', '0', '0', hexDigit (c.toNat / 16), hexDigit (c.toNat % 16)]
  else [c]

/-- A string between quotation marks. -/
def quote (s : String) : List Char := '"' :: (s.toList.flatMap escapeChar ++ ['"'])

namespace Value

mutual

/-- The compact form of a value, in front of the text that follows it. -/
def renderOnto : Value → List Char → List Char
  | null, rest => 'n' :: 'u' :: 'l' :: 'l' :: rest
  | bool true, rest => 't' :: 'r' :: 'u' :: 'e' :: rest
  | bool false, rest => 'f' :: 'a' :: 'l' :: 's' :: 'e' :: rest
  | int i, rest => (integer i).toList ++ rest
  | text s, rest => quote s ++ rest
  | array [], rest => '[' :: ']' :: rest
  | array (item :: items), rest => '[' :: item.renderOnto (renderItems items rest)
  | object [], rest => '{' :: '}' :: rest
  | object (member :: members), rest => '{' :: renderMember member (renderMembers members rest)
  | other, rest => 'n' :: 'u' :: 'l' :: 'l' :: rest

/-- The items of an array behind its first one, and its end. -/
def renderItems : List Value → List Char → List Char
  | [], rest => ']' :: rest
  | item :: items, rest => ',' :: item.renderOnto (renderItems items rest)

/-- The members of an object behind its first one, and its end. -/
def renderMembers : List (String × Value) → List Char → List Char
  | [], rest => '}' :: rest
  | member :: members, rest => ',' :: renderMember member (renderMembers members rest)

/-- One member of an object. -/
def renderMember : String × Value → List Char → List Char
  | (name, value), rest => quote name ++ ':' :: value.renderOnto rest

end

/-- The compact form of a value. -/
def render (value : Value) : String := String.ofList (value.renderOnto [])

/-- A new line at a level of indent. -/
def newLine (level : Nat) : List Char := '\n' :: List.replicate (2 * level) ' '

mutual

/-- The indented form of a value at a level of indent, in front of the text that follows it. -/
def prettyOnto (level : Nat) : Value → List Char → List Char
  | null, rest => 'n' :: 'u' :: 'l' :: 'l' :: rest
  | bool true, rest => 't' :: 'r' :: 'u' :: 'e' :: rest
  | bool false, rest => 'f' :: 'a' :: 'l' :: 's' :: 'e' :: rest
  | int i, rest => (integer i).toList ++ rest
  | text s, rest => quote s ++ rest
  | array [], rest => '[' :: ']' :: rest
  | array (item :: items), rest =>
    '[' :: newLine (level + 1) ++ item.prettyOnto (level + 1) (prettyItems level items rest)
  | object [], rest => '{' :: '}' :: rest
  | object (member :: members), rest =>
    '{' :: newLine (level + 1) ++
      prettyMember (level + 1) member (prettyMembers level members rest)
  | other, rest => 'n' :: 'u' :: 'l' :: 'l' :: rest

/-- The items of an indented array behind its first one, and its end. -/
def prettyItems (level : Nat) : List Value → List Char → List Char
  | [], rest => newLine level ++ ']' :: rest
  | item :: items, rest =>
    ',' :: newLine (level + 1) ++ item.prettyOnto (level + 1) (prettyItems level items rest)

/-- The members of an indented object behind its first one, and its end. -/
def prettyMembers (level : Nat) : List (String × Value) → List Char → List Char
  | [], rest => newLine level ++ '}' :: rest
  | member :: members, rest =>
    ',' :: newLine (level + 1) ++
      prettyMember (level + 1) member (prettyMembers level members rest)

/-- One member of an indented object. -/
def prettyMember (level : Nat) : String × Value → List Char → List Char
  | (name, value), rest => quote name ++ ':' :: ' ' :: value.prettyOnto level rest

end

/-- The indented form of a value. -/
def pretty (value : Value) : String := String.ofList (value.prettyOnto 0 [])

end Value

end JobLedger.Json
