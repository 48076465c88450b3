/-!
# Patterns with wildcards

In a pattern `%` stands for any run of characters and `_` for any one character, and a backslash
takes the character behind it literally. ASCII letters match in either case. A text is put into a
pattern by escaping it, and then matches itself alone, up to the case of ASCII letters.

Pattern and text both end at the first NUL.
-/

namespace JobLedger.Text.Like

/-- One item of a pattern. -/
inductive Item where
  /-- Any run of characters. -/
  | run
  /-- Any one character. -/
  | one
  /-- One given character. -/
  | just (c : Char)
  /-- A backslash with nothing behind it: matches nothing. -/
  | never
  deriving DecidableEq, Repr

/-- The items of a pattern. -/
def items : List Char → List Item
  | [] => []
  | '%' :: rest => .run :: items rest
  | '_' :: rest => .one :: items rest
  | '\\' :: c :: rest => .just c :: items rest
  | ['\\'] => [.never]
  | c :: rest => .just c :: items rest

/-- Two characters are the same up to the case of ASCII letters. -/
def sameLetter (a b : Char) : Bool := a.toLower = b.toLower

/-- A text matches the items of a pattern. -/
def matchItems : List Item → List Char → Bool
  | [], text => text.isEmpty
  | .run :: rest, [] => matchItems rest []
  | .run :: rest, c :: text => matchItems rest (c :: text) || matchItems (.run :: rest) text
  | .one :: rest, _ :: text => matchItems rest text
  | .just p :: rest, c :: text => sameLetter p c && matchItems rest text
  | _ :: _, _ => false

/-- The part of a text before its first NUL. -/
def beforeNul (text : List Char) : List Char := text.takeWhile (· ≠ '\x00')

/-- A text matches a pattern. -/
def matches? (pattern text : List Char) : Bool :=
  matchItems (items (beforeNul pattern)) (beforeNul text)

/-- A text as a pattern that takes every character literally. -/
def escape : List Char → List Char
  | [] => []
  | c :: rest =>
    if c = '%' ∨ c = '_' ∨ c = '\\' then '\\' :: c :: escape rest else c :: escape rest

end JobLedger.Text.Like
