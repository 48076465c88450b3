import JobLedger.Toml.Quoted
import JobLedger.Toml.Word

/-!
# Reading TOML

A document is a sequence of lines: headers, which begin tables, and values under names, which may be
dotted. A value may go on over several lines in brackets and in braces. Arrays of tables are not
read: nothing that is configured is one.
-/

namespace JobLedger.Toml

/-- The text behind its leading spaces and tabs. -/
def skipSpaces (text : List Char) : List Char := text.dropWhile isSpace

/-- The text behind the characters of a comment; the line break stays. -/
def skipComment : List Char → Option (List Char)
  | [] => some []
  | '\n' :: rest => some ('\n' :: rest)
  | '\r' :: '\n' :: rest => some ('\r' :: '\n' :: rest)
  | c :: rest => if isPlain c then skipComment rest else none

/-- The text behind what may follow on a line: blanks, a comment, and the line break. -/
def endLine (text : List Char) : Option (List Char) :=
  let ended : List Char → Option (List Char)
    | [] => some []
    | text => afterLineBreak? text
  match skipSpaces text with
  | '#' :: rest => (skipComment rest).bind ended
  | text => ended text

/-- The text behind blanks, line breaks and comments. The fuel bounds the comments. -/
def skipGap : Nat → List Char → Option (List Char)
  | 0, _ => none
  | fuel + 1, text =>
    match skipLines text with
    | '#' :: rest => (skipComment rest).bind (skipGap fuel)
    | text => some text

/-- The character may stand in a name without marks. -/
def isBare (c : Char) : Bool := c.isAlphanum || c = '_' || c = '-'

/-- A name without dots, and the rest. -/
def readName (fuel : Nat) (text : List Char) : Option (String × List Char) :=
  match readOneLine fuel text with
  | some read => some read
  | none =>
    let name := text.takeWhile isBare
    if name.isEmpty then none else some (String.ofList name, text.dropWhile isBare)

/-- The parts of a dotted name, and the rest behind blanks. The fuel bounds the parts. -/
def readPath : Nat → List String → List Char → Option (List String × List Char)
  | 0, _, _ => none
  | fuel + 1, seen, text =>
    match readName fuel (skipSpaces text) with
    | none => none
    | some (name, rest) =>
      match skipSpaces rest with
      | '.' :: rest => readPath fuel (name :: seen) rest
      | rest => some ((name :: seen).reverse, rest)

/-- A name in a table in braces with the text behind its equality sign. Around the sign there may be
line breaks and comments. -/
def afterEquals (fuel : Nat) (named : List String × List Char) :
    Option (List String × List Char) :=
  match skipGap fuel named.2 with
  | some ('=' :: rest) => (skipGap fuel rest).map fun rest => (named.1, rest)
  | _ => none

/-- The deepest nesting of arrays and of tables in braces. -/
def nestingLimit : Nat := 80

mutual

/-- The value at the start of a text, and the rest. The first bound counts steps, of which twice the
number of characters are enough, the second one nesting. -/
def readValue : Nat → Nat → List Char → Option (Value × List Char)
  | 0, _, _ => none
  | fuel + 1, depth, text =>
    match text with
    | '"' :: _ => (readQuoted fuel text).map fun read => (.text read.1, read.2)
    | '\'' :: _ => (readQuoted fuel text).map fun read => (.text read.1, read.2)
    | '[' :: rest => if depth = 0 then none else readItems fuel (depth - 1) [] rest
    | '{' :: rest => if depth = 0 then none else readMembers fuel (depth - 1) [] rest
    | _ => readWord text

/-- The rest of an array, from an item or the end on; `seen` holds the items so far, latest
first. -/
def readItems : Nat → Nat → List Value → List Char → Option (Value × List Char)
  | 0, _, _, _ => none
  | fuel + 1, depth, seen, text =>
    match skipGap fuel text with
    | none => none
    | some (']' :: rest) => some (.array seen.reverse, rest)
    | some text =>
      match readValue fuel depth text with
      | none => none
      | some (item, rest) =>
        match skipGap fuel rest with
        | some (',' :: rest) => readItems fuel depth (item :: seen) rest
        | some (']' :: rest) => some (.array (item :: seen).reverse, rest)
        | _ => none

/-- The rest of a table in braces, from a name or the end on. -/
def readMembers : Nat → Nat → Members → List Char → Option (Value × List Char)
  | 0, _, _, _ => none
  | fuel + 1, depth, members, text =>
    match skipGap fuel text with
    | none => none
    | some ('}' :: rest) => some (.table .inline members, rest)
    | some text =>
      match (readPath fuel [] text).bind (afterEquals fuel) with
      | none => none
      | some (path, text) =>
        match readValue fuel depth text with
        | none => none
        | some (value, rest) =>
          match members.add? value path, skipGap fuel rest with
          | some members, some (',' :: rest) => readMembers fuel depth members rest
          | some members, some ('}' :: rest) => some (.table .inline members, rest)
          | _, _ => none

end

/-- A line of a document. -/
inductive Line where
  /-- A header begins a table. -/
  | header (path : List String)
  /-- A value belongs to the table that was begun last. -/
  | member (path : List String) (value : Value)

/-- The header at the start of a text, behind its bracket, and the rest behind its line. -/
def readHeader (fuel : Nat) (text : List Char) : Option (Line × List Char) :=
  match readPath fuel [] text with
  | some (path, ']' :: rest) => (endLine rest).map fun rest => (.header path, rest)
  | _ => none

/-- The named value at the start of a text, and the rest behind its line. -/
def readMember (fuel : Nat) (text : List Char) : Option (Line × List Char) :=
  match readPath fuel [] text with
  | some (path, '=' :: rest) =>
    match readValue fuel nestingLimit (skipSpaces rest) with
    | some (value, rest) => (endLine rest).map fun rest => (.member path value, rest)
    | none => none
  | _ => none

/-- The lines of a text; `seen` holds those read so far, latest first. The fuel bounds the steps. -/
def readLines : Nat → List Line → List Char → Option (List Line)
  | 0, _, _ => none
  | fuel + 1, seen, text =>
    match skipSpaces text with
    | [] => some seen.reverse
    | '\n' :: rest => readLines fuel seen rest
    | '\r' :: '\n' :: rest => readLines fuel seen rest
    | '#' :: rest =>
      match skipComment rest with
      | some rest => readLines fuel seen rest
      | none => none
    | '[' :: rest =>
      match readHeader fuel rest with
      | some (line, rest) => readLines fuel (line :: seen) rest
      | none => none
    | text =>
      match readMember fuel text with
      | some (line, rest) => readLines fuel (line :: seen) rest
      | none => none

/-- The members of the document that lines make up; `path` is the header that was read last. -/
def ofLines? : List Line → List String → Members → Option Members
  | [], _, members => some members
  | .header path :: rest, _, members => (members.begin? path).bind (ofLines? rest path)
  | .member name value :: rest, path, members =>
    (members.addUnder? value name path).bind (ofLines? rest path)

/-- The text without a byte order mark at its start. -/
def dropMark : List Char → List Char
  | '\uFEFF' :: rest => rest
  | text => text

/-- The members of the document in a text. -/
def read? (text : String) : Option Members := do
  let text := dropMark text.toList
  ofLines? (← readLines (3 * text.length + 3) [] text) [] []

end JobLedger.Toml
