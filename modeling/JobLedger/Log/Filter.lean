import JobLedger.Log.PatternReader
import JobLedger.Text.Alphanumeric
import JobLedger.Text.Blank
import JobLedger.Text.Cut
import JobLedger.Text.Utf8

/-!
# Log filters

A log filter is a list of directives with commas between them. A directive names a target, a span in
brackets with fields in braces, and a level behind an equality sign; each part may be missing, and a
level may stand alone. The environment may give the filter; a blank one does not count.

Blanks around a directive are passed over where its parts are looked for, but the parts are taken
from the directive with its blanks, at the places found without them.
-/

namespace JobLedger.Log

open Text

/-- The filter in effect. -/
def directive (setting : Option String) (filter : String) : String :=
  match setting.map trimmed with
  | some setting => if setting = "" then trimmed filter else setting
  | none => trimmed filter

/-- The names of levels. -/
def levelNames : List String := ["error", "warn", "info", "debug", "trace", "off"]

/-- The text behind a plus sign, if it starts with one. -/
def afterPlus : List Char → List Char
  | '+' :: rest => rest
  | text => text

/-- A text is a natural number of the given range. -/
def isNumberUpTo (limit : Nat) (text : List Char) : Bool :=
  let digits := afterPlus text
  !digits.isEmpty && digits.all Char.isDigit && Nat.ofDigitChars 10 digits 0 ≤ limit

/-- A text is a level: a name in any case, or a number up to five. -/
def isLevel (text : List Char) : Bool :=
  isNumberUpTo 5 text || levelNames.contains (String.ofList (text.map Char.toLower))

/-- A text is a floating-point number. -/
def isFloat (text : List Char) : Bool :=
  let magnitude := match text with
    | '+' :: rest => rest
    | '-' :: rest => rest
    | text => text
  if ["inf", "infinity", "nan"].contains (String.ofList (magnitude.map Char.toLower)) then true
  else
    let isMark (c : Char) : Bool := c = 'e' || c = 'E'
    let mantissa := magnitude.takeWhile fun c => !isMark c
    let wellExponed := match magnitude.dropWhile fun c => !isMark c with
      | [] => true
      | _ :: '+' :: digits => !digits.isEmpty && digits.all Char.isDigit
      | _ :: '-' :: digits => !digits.isEmpty && digits.all Char.isDigit
      | _ :: digits => !digits.isEmpty && digits.all Char.isDigit
    let digits := match cutFirst '.' mantissa with
      | some (whole, fraction) => whole ++ fraction
      | none => mantissa
    !digits.isEmpty && digits.all Char.isDigit && wellExponed

/-- A field is a name, or a name and a value; a value that is no number is a pattern. -/
def isField (text : List Char) : Bool :=
  match (parts '=' text)[1]? with
  | none => true
  | some value => isFloat value || isPattern value

/-- Where the reading of a directive stands. -/
inductive Stage where
  | start
  /-- In a level or a target, from a position on. -/
  | bare (start : Nat)
  | span
  /-- In a field, from a position on. -/
  | field (start : Nat)
  | fields
  /-- Behind a target with its span. -/
  | target
  /-- In a level behind an equality sign, from a position on. -/
  | level (start : Nat)
  deriving DecidableEq, Repr

/-- The text between two positions of a directive. -/
def slice (directive : Octets) (first last : Nat) : Option (List Char) :=
  (ofOctets? ((directive.drop first).take (last - first))).map String.toList

/-- A directive may start with the character. -/
def isDirectiveStart (c : Char) : Bool := c = '-' || c = ':' || c = '_' || isAlphanumeric c

/-- Reads the character at a position of a directive. -/
def step (directive : Octets) (position : Nat) (c : Char) : Stage → Option Stage
  | .start =>
    if c = '[' then some .span
    else if isDirectiveStart c then some (.bare position)
    else none
  | .bare start =>
    if c = '=' then some (.level (position + 1))
    else if c = '[' then some .span
    else some (.bare start)
  | .span =>
    if c = ']' then some .target
    else if c = '{' then some (.field (position + 1))
    else some .span
  | .field start =>
    if c = '}' then
      if position = start then none
      else if (slice directive start position).any isField then some .fields
      else none
    else some (.field start)
  | .fields => if c = ']' then some .target else none
  | .target => if c = '=' then some (.level (position + 1)) else none
  | .level start => some (.level start)

/-- A directive may end at a stage. -/
def mayEnd (directive : Octets) : Stage → Bool
  | .bare _ => true
  | .target => true
  | .level start =>
    match slice directive start directive.length with
    | some text => text.isEmpty || isLevel text
    | none => false
  | _ => false

/-- Reads a directive from a position on. -/
def readFrom (directive : Octets) : Nat → Stage → List Char → Bool
  | _, stage, [] => mayEnd directive stage
  | position, stage, c :: rest =>
    match step directive position c stage with
    | some stage => readFrom directive (position + c.utf8Size) stage rest
    | none => false

/-- A text is a directive. -/
def isDirective (text : List Char) : Bool := readFrom (octets text) 0 .start (trim text)

/-- A text is a filter. Between two commas there may be nothing. -/
def isFilter (text : String) : Bool :=
  ((parts ',' text.toList).filter fun part => !part.isEmpty).all isDirective

end JobLedger.Log
