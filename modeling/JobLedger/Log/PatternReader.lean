import JobLedger.Log.Pattern
import JobLedger.Text.Alphanumeric
import JobLedger.Text.Blank
import JobLedger.Text.Hexadecimal

/-!
# Reading patterns

A pattern is read part by part. Under a mode that a group can set, blanks and comments between the
parts are passed over, also those in a class and between the digits of a code; a comment goes up to
the end of its line.
-/

namespace JobLedger.Log

open Text

/-- The text behind blanks and comments; the first argument tells whether a comment has begun. -/
def afterBlanks : Bool → List Char → List Char
  | _, [] => []
  | true, c :: rest => afterBlanks (c ≠ '\n') rest
  | false, c :: rest =>
    if isBlank c then afterBlanks false rest
    else if c = '#' then afterBlanks true rest
    else c :: rest

/-- The text where the next part begins. -/
def skipBlanks (spaced : Bool) (text : List Char) : List Char :=
  if spaced then afterBlanks false text else text

/-- What a backslash begins. -/
inductive Escape where
  /-- A character; it may be written as the octet that is its code. -/
  | letter (c : Char) (octet : Bool)
  | place
  | wordPlace
  | shorthand (negated : Bool)
  | category
  deriving DecidableEq, Repr

/-- The escape as a pattern. -/
def Escape.toPattern : Escape → Pattern
  | letter c octet => .letter c octet
  | place => .place
  | wordPlace => .wordPlace
  | shorthand negated => .shorthand negated
  | category => .category

/-- The escape as a part of a class; a place is none. -/
def Escape.toClassPart? : Escape → Option ClassPart
  | letter c _ => some (.letter c)
  | shorthand negated => some (.shorthand negated)
  | category => some .category
  | _ => none

/-- A given number of hexadecimal digits, and the text behind them. -/
def readDigits (spaced : Bool) : Nat → List Char → Option (List Char × List Char)
  | 0, text => some ([], text)
  | _ + 1, [] => none
  | count + 1, c :: rest =>
    if (hexValue? c).isSome then
      (readDigits spaced count (skipBlanks spaced rest)).map fun read => (c :: read.1, read.2)
    else none

/-- The character of a code of so many hexadecimal digits, and the text behind it. -/
def readCode (spaced : Bool) (count : Nat) (text : List Char) : Option (Char × List Char) := do
  let (digits, rest) ← readDigits spaced count (skipBlanks spaced text)
  let code ← hexadecimal? digits
  if code.isValidChar then some (Char.ofNat code, rest) else none

/-- The control character that a letter stands for behind a backslash. -/
def controlOf? : Char → Option Char
  | 'a' => some '\x07'
  | 'f' => some '\x0C'
  | 't' => some '\t'
  | 'n' => some '\n'
  | 'r' => some '\r'
  | 'v' => some '\x0B'
  | _ => none

/-- The character stands for itself behind a backslash. -/
def isPlainEscape (c : Char) : Bool := isAscii c && !c.isAlphanum && c ≠ '<' && c ≠ '>'

/-- The escape behind a backslash, and the text behind it. -/
def readEscape (spaced : Bool) : List Char → Option (Escape × List Char)
  | [] => none
  | 'x' :: rest => (readCode spaced 2 rest).map fun read => (.letter read.1 true, read.2)
  | 'u' :: rest => (readCode spaced 4 rest).map fun read => (.letter read.1 false, read.2)
  | 'U' :: rest => (readCode spaced 8 rest).map fun read => (.letter read.1 false, read.2)
  | 'p' :: _ :: rest | 'P' :: _ :: rest => some (.category, rest)
  | c :: rest =>
    if ['d', 's', 'w'].contains c then some (.shorthand false, rest)
    else if ['D', 'S', 'W'].contains c then some (.shorthand true, rest)
    else if ['A', 'z'].contains c then some (.place, rest)
    else if ['b', 'B', '<', '>'].contains c then some (.wordPlace, rest)
    else if isPlainEscape c then some (.letter c false, rest)
    else (controlOf? c).map fun control => (.letter control false, rest)

/-! ## Classes -/

/-- The names of the classes of ASCII characters. -/
def classNames : List String :=
  ["alnum", "alpha", "ascii", "blank", "cntrl", "digit", "graph", "lower", "print", "punct",
    "space", "upper", "word", "xdigit"]

/-- The class with a name at the start of a text, behind its bracket, and the text behind it. -/
def readNamed? : List Char → Option (ClassPart × List Char)
  | ':' :: rest =>
    let (negated, rest) := match rest with
      | '^' :: rest => (true, rest)
      | rest => (false, rest)
    classNames.findSome? fun name =>
      let whole := name.toList ++ [':', ']']
      if whole.isPrefixOf rest then some (.named negated, rest.drop whole.length) else none
  | _ => none

/-- A character or an escape in a class, and the text behind it. -/
def readElement (spaced : Bool) : List Char → Option (Escape × List Char)
  | [] => none
  | '\\' :: rest => readEscape spaced rest
  | c :: rest => some (.letter c false, rest)

/-- The character behind a hyphen that decides whether the hyphen makes a range. Of a comment the
first character that is no blank is looked at. -/
def deciding? (spaced : Bool) (text : List Char) : Option Char :=
  if spaced then
    match text.dropWhile isBlank with
    | '#' :: rest => (rest.dropWhile isBlank).head?
    | rest => rest.head?
  else text.head?

/-- A range, or a single element of a class, and the text behind it. -/
def readRange (spaced : Bool) (text : List Char) : Option (ClassPart × List Char) := do
  let (first, rest) ← readElement spaced text
  match skipBlanks spaced rest with
  | '-' :: more =>
    if deciding? spaced more = some ']' ∨ deciding? spaced more = some '-' then
      some (← first.toClassPart?, '-' :: more)
    else
      match first, ← readElement spaced (skipBlanks spaced more) with
      | .letter low _, (.letter high _, rest) =>
        if low ≤ high then some (.range low high, rest) else none
      | _, _ => none
  | rest => some (← first.toClassPart?, rest)

/-- The hyphens at the start of a class as parts of it, in front of `seen`, and the text behind
them. The fuel bounds their number. -/
def readHyphens (spaced : Bool) : Nat → List ClassPart → List Char → List ClassPart × List Char
  | 0, seen, text => (seen, text)
  | fuel + 1, seen, '-' :: rest =>
    readHyphens spaced fuel (.letter '-' :: seen) (skipBlanks spaced rest)
  | _ + 1, seen, text => (seen, text)

/-- The operation on what stands left of an operator, if anything does, and right of it. -/
def operate (left : Option ClassPart) (seen : List ClassPart) : ClassPart :=
  let right := ClassPart.ofParts seen.reverse
  (left.map fun left => .operation left right).getD right

mutual

/-- The class behind its opening bracket, and the text behind it. A closing bracket that comes first
is a part of the class. The fuel bounds the parts. -/
def readClass (spaced : Bool) : Nat → List Char → Option (ClassPart × List Char)
  | 0, _ => none
  | fuel + 1, text =>
    let text := skipBlanks spaced text
    let (negated, text) := match text with
      | '^' :: rest => (true, skipBlanks spaced rest)
      | text => (false, text)
    let (seen, text) := match readHyphens spaced fuel [] text with
      | ([], ']' :: rest) => ([ClassPart.letter ']'], rest)
      | read => read
    (readParts spaced fuel none seen text).map fun read => (.bracket negated read.1, read.2)

/-- The parts of a class up to its closing bracket, and the text behind that. Left of an operator
stands `left`, and behind it the parts `seen`, latest first. -/
def readParts (spaced : Bool) :
    Nat → Option ClassPart → List ClassPart → List Char → Option (ClassPart × List Char)
  | 0, _, _, _ => none
  | fuel + 1, left, seen, text =>
    match skipBlanks spaced text with
    | [] => none
    | ']' :: rest => some (operate left seen, rest)
    | '[' :: rest =>
      match readNamed? rest with
      | some (part, rest) => readParts spaced fuel left (part :: seen) rest
      | none =>
        match readClass spaced fuel rest with
        | some (part, rest) => readParts spaced fuel left (part :: seen) rest
        | none => none
    | '&' :: '&' :: rest => readParts spaced fuel (some (operate left seen)) [] rest
    | '-' :: '-' :: rest => readParts spaced fuel (some (operate left seen)) [] rest
    | '~' :: '~' :: rest => readParts spaced fuel (some (operate left seen)) [] rest
    | text =>
      match readRange spaced text with
      | some (part, rest) => readParts spaced fuel left (part :: seen) rest
      | none => none

end

/-! ## Groups -/

/-- The flags of a group are well formed: each is known, none stands twice, and a minus has one
behind it. -/
def areFlags (flags : List Char) : Bool :=
  let letters := flags.filter (· ≠ '-')
  letters.all (['i', 'm', 's', 'U', 'u', 'R', 'x'].contains ·) && letters.eraseDups = letters &&
    flags.length ≤ letters.length + 1 && flags.getLast? ≠ some '-'

/-- What flags say of one of them: behind a minus they switch it off. -/
def flag? (letter : Char) (flags : List Char) : Option Bool :=
  if (flags.takeWhile (· ≠ '-')).contains letter then some true
  else if flags.contains letter then some false
  else none

/-- The change that flags make. -/
def changeOf (flags : List Char) : ModeChange :=
  ⟨flag? 'i' flags, flag? 'u' flags, flag? 'x' flags⟩

/-- A name of a group. -/
def isGroupName : List Char → Bool
  | [] => false
  | c :: rest =>
    (isAlphabetic c || c = '_') &&
      rest.all fun c => isAlphanumeric c || c = '_' || c = '.' || c = '[' || c = ']'

/-- What a parenthesis begins. -/
inductive Opening where
  | group (name : Option String) (change : ModeChange)
  /-- Only a change of modes, which has ended. -/
  | modes (change : ModeChange)

/-- The name of a group up to its closing mark, and the text behind that. -/
def readGroupName (text : List Char) : Option (Opening × List Char) :=
  let name := text.takeWhile (· ≠ '>')
  match text.dropWhile (· ≠ '>') with
  | _ :: rest =>
    if isGroupName name then some (.group (String.ofList name) .none, rest) else none
  | [] => none

/-- The start of a group behind its parenthesis, and the text behind it. -/
def readOpening : List Char → Option (Opening × List Char)
  | '?' :: 'P' :: '<' :: rest => readGroupName rest
  | '?' :: '<' :: rest => readGroupName rest
  | '?' :: rest =>
    let flags := rest.takeWhile fun c => c ≠ ':' && c ≠ ')'
    if !areFlags flags then none
    else
      match rest.dropWhile fun c => c ≠ ':' && c ≠ ')' with
      | ':' :: rest => some (.group none (changeOf flags), rest)
      | ')' :: rest => if flags.isEmpty then none else some (.modes (changeOf flags), rest)
      | _ => none
  | rest => some (.group none .none, rest)

/-! ## Patterns -/

/-- The character repeats what stands in front of it. -/
def isRepeat (c : Char) : Bool := c = '*' || c = '+' || c = '?'

/-- The text behind the mark that makes a repetition match as little as it can. -/
def afterLazyMark : List Char → List Char
  | '?' :: rest => rest
  | text => text

/-- A single part of a pattern that is neither group nor class, and the text behind it. -/
def readAtom (spaced : Bool) (c : Char) (rest : List Char) : Option (Pattern × List Char) :=
  match c with
  | '\\' => (readEscape spaced rest).map fun read => (read.1.toPattern, read.2)
  | '.' => some (.dot, rest)
  | '^' | '$' => some (.place, rest)
  | '{' => none
  | c => some (.letter c false, rest)

/-- The pattern up to the end of its group or of the text, and the text from there on. The
alternatives in front are `done`, the parts of the present one `seen`, both latest first. The fuel
bounds the parts. -/
def readPattern :
    Nat → Bool → List Pattern → List Pattern → List Char → Option (Pattern × List Char)
  | 0, _, _, _, _ => none
  | fuel + 1, spaced, done, seen, text =>
    let whole := Pattern.ofAlternatives (Pattern.ofParts seen.reverse :: done).reverse
    match skipBlanks spaced text with
    | [] => some (whole, [])
    | ')' :: rest => some (whole, ')' :: rest)
    | '|' :: rest => readPattern fuel spaced (Pattern.ofParts seen.reverse :: done) [] rest
    | '(' :: rest =>
      match readOpening (skipBlanks spaced rest) with
      | none => none
      | some (.modes change, rest) =>
        readPattern fuel (change.spaced.getD spaced) done (.modes change :: seen) rest
      | some (.group name change, rest) =>
        match readPattern fuel (change.spaced.getD spaced) [] [] rest with
        | some (inner, ')' :: rest) =>
          readPattern fuel spaced done (.group name change inner :: seen) rest
        | _ => none
    | '[' :: rest =>
      match readClass spaced (2 * rest.length + 2) rest with
      | some (set, rest) => readPattern fuel spaced done (.charClass set :: seen) rest
      | none => none
    | c :: rest =>
      if isRepeat c then
        match seen with
        | [] => none
        | last :: before =>
          if last.isRepeatable then
            readPattern fuel spaced done (.repeated last :: before) (afterLazyMark rest)
          else none
      else
        match readAtom spaced c rest with
        | some (part, rest) => readPattern fuel spaced done (part :: seen) rest
        | none => none

/-- The pattern in a text. -/
def pattern? (text : List Char) : Option Pattern :=
  match readPattern (text.length + 1) false [] [] text with
  | some (p, []) => some p
  | _ => none

/-- A text is a pattern that can be used. -/
def isPattern (text : List Char) : Bool := (pattern? text).any Pattern.isFit

end JobLedger.Log
