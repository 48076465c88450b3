/-!
# Patterns of field values

A value that a log filter compares with may be a regular expression: characters, classes of
characters, groups, alternatives and repetitions. Counted repetitions do not occur, since a closing
brace ends the value.

A pattern is matched by octets, and the octets of a text are UTF-8. So a part that could match octets
that are no text is refused, and so is a part that asks for a property of characters beyond ASCII:
a word boundary, a class by shorthand, letters in either case.
-/

namespace JobLedger.Log

/-- How the parts of a pattern are taken. -/
structure Modes where
  /-- A letter matches in either case. -/
  anyCase : Bool
  /-- A part matches characters rather than octets. -/
  unicode : Bool
  deriving DecidableEq, Repr

/-- The modes at the start of a pattern. -/
def Modes.start : Modes := ⟨false, true⟩

/-- A change of modes. What is not named stays as it is. -/
structure ModeChange where
  anyCase : Option Bool
  unicode : Option Bool
  /-- Blanks in the pattern count for nothing, and comments are blanks. -/
  spaced : Option Bool
  deriving DecidableEq, Repr

/-- The change that changes nothing. -/
def ModeChange.none : ModeChange := ⟨Option.none, Option.none, Option.none⟩

/-- The modes after a change. -/
def Modes.change (m : Modes) (change : ModeChange) : Modes :=
  ⟨change.anyCase.getD m.anyCase, change.unicode.getD m.unicode⟩

/-- A part of a class of characters. -/
inductive ClassPart where
  | nothing
  | letter (c : Char)
  | range (low high : Char)
  /-- A class of ASCII characters by its name. -/
  | named (negated : Bool)
  /-- A class behind a backslash, such as that of digits. -/
  | shorthand (negated : Bool)
  /-- The characters of a category. -/
  | category
  | bracket (negated : Bool) (inner : ClassPart)
  /-- Two or more parts side by side. -/
  | union (parts : List ClassPart)
  /-- An intersection or a difference. -/
  | operation (left right : ClassPart)

/-- A regular expression. -/
inductive Pattern where
  | empty
  /-- A change of modes up to the end of the group. -/
  | modes (change : ModeChange)
  /-- A character; it may be written as the octet that is its code. -/
  | letter (c : Char) (octet : Bool)
  /-- Any character but a line break. -/
  | dot
  /-- A place, such as the start of the text. -/
  | place
  /-- A place at the edge of a word, or at none. -/
  | wordPlace
  | shorthand (negated : Bool)
  | category
  | charClass (set : ClassPart)
  | repeated (inner : Pattern)
  | group (name : Option String) (change : ModeChange) (inner : Pattern)
  /-- Two or more patterns of which one is to match. -/
  | alternatives (parts : List Pattern)
  /-- Two or more patterns one behind the other. -/
  | sequence (parts : List Pattern)

/-- The character is in ASCII. -/
def isAscii (c : Char) : Bool := c.toNat < 128

namespace ClassPart

mutual

/-- How deep the brackets, lists and operations of a class nest. -/
def depth : ClassPart → Nat
  | bracket _ inner => inner.depth + 1
  | union parts => depthOfAll parts + 1
  | operation left right => max left.depth right.depth + 1
  | _ => 0

/-- The greatest depth of some parts. -/
def depthOfAll : List ClassPart → Nat
  | [] => 0
  | part :: rest => max part.depth (depthOfAll rest)

end

mutual

/-- A class can be decided under given modes. -/
def isFit (m : Modes) : ClassPart → Bool
  | nothing => true
  | letter c => if m.unicode then !m.anyCase else isAscii c
  | range low high => if m.unicode then !m.anyCase else isAscii low && isAscii high
  | named negated => if m.unicode then !m.anyCase else !negated
  | shorthand negated => !m.unicode && !negated
  | category => false
  | bracket negated inner => (m.unicode || !negated) && inner.isFit m
  | union parts => areFit m parts
  | operation left right => left.isFit m && right.isFit m

/-- All of some parts can be decided. -/
def areFit (m : Modes) : List ClassPart → Bool
  | [] => true
  | part :: rest => part.isFit m && areFit m rest

end

end ClassPart

namespace Pattern

mutual

/-- How deep the groups, repetitions, lists and classes of a pattern nest. -/
def depth : Pattern → Nat
  | charClass set => set.depth
  | repeated inner => inner.depth + 1
  | group _ _ inner => inner.depth + 1
  | alternatives parts => depthOfAll parts + 1
  | sequence parts => depthOfAll parts + 1
  | _ => 0

/-- The greatest depth of some patterns. -/
def depthOfAll : List Pattern → Nat
  | [] => 0
  | part :: rest => max part.depth (depthOfAll rest)

end

mutual

/-- The names of the groups of a pattern. -/
def names : Pattern → List String
  | repeated inner => inner.names
  | group name _ inner => name.toList ++ inner.names
  | alternatives parts => namesOfAll parts
  | sequence parts => namesOfAll parts
  | _ => []

/-- The names of the groups of some patterns. -/
def namesOfAll : List Pattern → List String
  | [] => []
  | part :: rest => part.names ++ namesOfAll rest

end

mutual

/-- The modes behind a pattern that can be decided under given modes. A change of modes lasts up to
the end of the group that it stands in. -/
def after? (m : Modes) : Pattern → Option Modes
  | empty => some m
  | modes change => some (m.change change)
  | letter c octet =>
    if (if m.unicode then !m.anyCase else isAscii c || !octet) then some m else none
  | dot => if m.unicode then some m else none
  | place => some m
  | wordPlace => if m.unicode then none else some m
  | shorthand negated => if !m.unicode && !negated then some m else none
  | category => none
  | charClass set => if set.isFit m then some m else none
  | repeated inner => inner.after? m
  | group _ change inner => (inner.after? (m.change change)).map fun _ => m
  | alternatives parts => afterAll? m parts
  | sequence parts => afterAll? m parts

/-- The modes behind patterns that are decided one after the other. -/
def afterAll? (m : Modes) : List Pattern → Option Modes
  | [] => some m
  | part :: rest => (part.after? m).bind fun m => afterAll? m rest

end

/-- The deepest nesting of a pattern. -/
def nestingLimit : Nat := 250

/-- A pattern can be used: it does not nest too deep, no name is given to two groups, and all its
parts can be decided. -/
def isFit (p : Pattern) : Bool :=
  p.depth ≤ nestingLimit && p.names.eraseDups = p.names && (p.after? .start).isSome

/-- A pattern can be repeated. -/
def isRepeatable : Pattern → Bool
  | modes _ => false
  | _ => true

/-- The pattern of parts one behind the other. -/
def ofParts : List Pattern → Pattern
  | [] => empty
  | [part] => part
  | parts => sequence parts

/-- The pattern of alternatives. -/
def ofAlternatives : List Pattern → Pattern
  | [] => empty
  | [part] => part
  | parts => alternatives parts

end Pattern

/-- The class part of parts side by side. -/
def ClassPart.ofParts : List ClassPart → ClassPart
  | [] => nothing
  | [part] => part
  | parts => union parts

end JobLedger.Log
