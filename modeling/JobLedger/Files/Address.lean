import JobLedger.Files.Path
import JobLedger.Text.Hexadecimal
import JobLedger.Text.Utf8

/-!
# Addresses of databases

A path that starts with `file:` is the address of a database; any other path is its name. Behind the
scheme an address may have a host, which has to be the local one, then a name, and behind a question
mark options with an ampersand between them. A number sign ends it. In a name, in the name of an
option and in its value two hexadecimal digits behind a percent sign stand for an octet, and the
octet zero hides what follows.
-/

namespace JobLedger.Files

open Text

/-- How a database is opened. -/
inductive OpenMode where
  /-- For reading only. -/
  | read
  /-- For reading and writing. -/
  | write
  /-- For reading and writing, also where there is none yet. -/
  | create
  /-- Without a file. -/
  | memory
  deriving DecidableEq, Repr

/-- The mode of a given word. -/
def OpenMode.ofWord? : String → Option OpenMode
  | "ro" => some .read
  | "rw" => some .write
  | "rwc" => some .create
  | "memory" => some .memory
  | _ => none

/-- Another mode may take the place of one that is set. It may not ask for more. -/
def OpenMode.admits : OpenMode → OpenMode → Bool
  | .write, .create | .read, .create | .read, .write => false
  | _, _ => true

/-- What a path says about a database. -/
structure Address where
  /-- The name of its file, or of the database in memory. -/
  name : String
  mode : OpenMode := .create
  /-- Those who give the same name for a database in memory find the same one. -/
  isShared : Bool := false
  /-- The system of files that it is kept in. -/
  system : String := "unix"
  /-- Nobody changes its file. -/
  isImmutable : Bool := false
  /-- Nobody else uses its file. -/
  isUnlocked : Bool := false
  /-- A file whose rights a new file is given. -/
  modelFile : Option String := none
  deriving DecidableEq, Repr

/-- Where a database is kept. -/
inductive Site where
  /-- In the file of a name. -/
  | file (name : String)
  /-- In memory, for everyone who gives the name. -/
  | sharedMemory (name : String)
  /-- In memory, for the one who opens it. -/
  | memory
  /-- In a file without a name, for the one who opens it. -/
  | scratch
  deriving DecidableEq, Repr

/-- The name that stands for a database in memory. -/
def memoryName : String := ":memory:"

/-- The octets that a part of an address stands for. -/
def unescape : List Char → Octets
  | [] => []
  | '%' :: a :: b :: rest =>
    match hexadecimal? [a, b] with
    | some 0 => []
    | some n => UInt8.ofNat n :: unescape rest
    | none => octets ['%'] ++ unescape (a :: b :: rest)
  | c :: rest => octets [c] ++ unescape rest

/-- The text of a part of an address. Octets that encode none stand for characters one by one. -/
def partText (part : List Char) : String :=
  let source := unescape part
  (ofOctets? source).getD (String.ofList (source.map fun o => Char.ofNat o.toNat))

/-- The scheme that an address starts with. -/
def scheme : List Char := "file:".toList

/-- An address behind its host. -/
def dropHost? : List Char → Option (List Char)
  | '/' :: '/' :: rest =>
    let host := rest.takeWhile (· ≠ '/')
    if host = [] ∨ host = "localhost".toList then some (rest.dropWhile (· ≠ '/')) else none
  | text => some text

/-- The name and the value of an option. -/
def optionOf (part : List Char) : String × String :=
  match cutFirst '=' part with
  | some (name, value) => (partText name, partText value)
  | none => (partText part, "")

/-- The options of a query. One without a name is none. -/
def optionsOf (query : List Char) : List (String × String) :=
  ((parts '&' query).map optionOf).filter fun entry => entry.1 ≠ ""

/-- The number that a switch is given as: the lowest octet of one below 2147483648, else zero. -/
def switchNumber (value : List Char) : Nat :=
  let n := match value with
    | '0' :: 'x' :: digits | '0' :: 'X' :: digits =>
      (hexadecimal? (digits.takeWhile fun c => (hexValue? c).isSome)).getD 0
    | digits => Nat.ofDigitChars 10 (digits.takeWhile Char.isDigit) 0
  if n < 2147483648 then n % UInt8.size else 0

/-- The value of a switch means yes. -/
def isYes (value : String) : Bool :=
  if value.toList.head?.any Char.isDigit then switchNumber value.toList ≠ 0
  else ["on", "yes", "true"].contains (String.ofList (value.toList.map Char.toLower))

/-- The systems of files. -/
def systems : List String := ["unix", "unix-none", "unix-dotfile", "unix-excl", "memdb"]

namespace Address

/-- The address with an option in effect. -/
def withOption? (a : Address) : String × String → Option Address
  | ("mode", word) => do
    let mode ← OpenMode.ofWord? word
    if a.mode.admits mode then some { a with mode } else none
  | ("cache", "shared") => some { a with isShared := true }
  | ("cache", "private") => some { a with isShared := false }
  | ("cache", _) => none
  | ("vfs", system) => some { a with system }
  | _ => some a

/-- The address of a name with options. Of a switch that is given twice the first one counts. -/
def ofOptions? (name : String) (options : List (String × String)) : Option Address := do
  let a ← options.foldlM withOption? { name }
  if !systems.contains a.system then none
  some { a with
    isImmutable := (options.lookup "immutable").any isYes
    isUnlocked := (options.lookup "nolock").any isYes
    modelFile := options.lookup "modeof" }

/-- What a path says about a database. -/
def ofPath? (path : String) : Option Address :=
  let text := path.toList
  if text.contains '\x00' then none
  else if scheme.isPrefixOf text then do
    let text := (← dropHost? (text.drop scheme.length)).takeWhile (· ≠ '#')
    match cutFirst '?' text with
    | some (name, query) => ofOptions? (partText name) (optionsOf query)
    | none => ofOptions? (partText text) []
  else some { name := path }

/-- The database is kept by a system of files. -/
def isFiled (a : Address) : Bool := a.mode ≠ .memory && a.name ≠ memoryName

/-- Where the database is kept. -/
def site (a : Address) : Site :=
  if !a.isFiled then
    if a.isShared ∧ a.name ≠ "" then .sharedMemory a.name else .memory
  else if a.name = "" then .scratch
  else if a.system = "memdb" then
    if isRooted a.name then .sharedMemory a.name else .memory
  else .file a.name

/-- What is kept may be changed. -/
def mayWrite (a : Address) : Bool := a.mode ≠ .read && !a.isImmutable

/-- Others are taken not to use the file. There is no log beside it then, which others share. -/
def isUnshared (a : Address) : Bool :=
  a.isUnlocked || ["unix-none", "unix-dotfile"].contains a.system

/-- Others do not matter. -/
def isAlone (a : Address) : Bool := a.isImmutable || a.isUnshared

end Address

end JobLedger.Files
