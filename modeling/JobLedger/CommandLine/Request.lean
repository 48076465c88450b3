import JobLedger.CommandLine.Command
import JobLedger.Text.Blank
import JobLedger.Text.Cut

/-!
# Requests

The arguments of a program as a request. Options begin with two hyphens and have one value each,
behind an equality sign or as the next argument; an option stands at most once in front of the
command and at most once behind it, and two hyphens alone end the options. The paths of the
configuration and of the database may be given in front of the command or behind it, where they
count more.
-/

namespace JobLedger

open Text

/-- A command with the paths that it is to work on. -/
structure Invocation where
  /-- The path of the configuration. -/
  config : Option String
  /-- The path of the database. -/
  database : Option String
  command : Command
  deriving DecidableEq

/-- What a program is asked for. -/
inductive Request where
  | run (invocation : Invocation)
  | version
  | help
  deriving DecidableEq

namespace Request

/-- What an argument looks like. -/
inductive Argument where
  /-- Two hyphens: no options follow. -/
  | ending
  /-- An option, with the value behind its equality sign. -/
  | long (name : String) (value : Option String)
  /-- Letters behind a hyphen. -/
  | short (letters : List Char)
  | word
  deriving DecidableEq

/-- An option from its text behind the hyphens. -/
def longArgument (text : List Char) : Argument :=
  match cutFirst '=' text with
  | some (name, value) => .long (String.ofList name) (some (String.ofList value))
  | none => .long (String.ofList text) none

/-- What an argument looks like. A hyphen alone is a word. -/
def argument (text : String) : Argument :=
  match text.toList with
  | ['-', '-'] => .ending
  | '-' :: '-' :: text => longArgument text
  | ['-'] => .word
  | '-' :: letters => .short letters
  | _ => .word

/-- What was given so far in front of a command or behind it. -/
structure Given where
  options : List (String × String) := []
  words : List String := []

namespace Given

/-- The value of an option. -/
def option? (g : Given) (name : String) : Option String := g.options.lookup name

/-- The option is known and new, and its value is none that is refused. -/
def add? (g : Given) (known : List String) (name value : String) : Option Given :=
  if known.contains name ∧ (g.option? name).isNone ∧
      ((name = "config" ∨ name = "db") → value ≠ "") then
    some { g with options := g.options ++ [(name, value)] }
  else none

end Given

/-- The options that may stand in front of a command and behind it. -/
def sharedOptions : List String := ["config", "db"]

/-- Reads the arguments behind a command; `none` within stands for a call for help. -/
def scan (known : List String) : Bool → Given → List String → Option (Option Given)
  | _, g, [] => some (some g)
  | true, g, text :: rest => scan known true { g with words := g.words ++ [text] } rest
  | false, g, text :: rest =>
    match argument text with
    | .ending => scan known true g rest
    | .word => scan known false { g with words := g.words ++ [text] } rest
    | .short letters => if letters.head? = some 'h' then some none else none
    | .long "help" none => some none
    | .long name (some value) =>
      match g.add? known name value with
      | some g => scan known false g rest
      | none => none
    | .long name none =>
      match rest with
      | [] => none
      | value :: rest =>
        if argument value = .word then
          match g.add? known name value with
          | some g => scan known false g rest
          | none => none
        else none

/-- The number that a text writes, a plus sign allowed, if it fits in 64 bits. -/
def number? (text : String) : Option Nat := do
  let digits := match text.toList with
    | '+' :: rest => rest
    | text => text
  let n ← decimal? digits
  if n < UInt64.size then some n else none

/-- The identifier that a text writes, white space around it allowed. -/
def id? {entity : Entity} (text : String) : Option (Id entity) :=
  (number? (trimmed text)).bind Id.ofNat?

/-- The number of an option. -/
def numberOption? (g : Given) (name : String) (default : Nat) : Option Nat :=
  match g.option? name with
  | some text => number? text
  | none => some default

/-- The command that lists instances. A tag is given only together with a name. -/
def instancesCommand? (g : Given) : Option Command := do
  let name := g.option? "name"
  let appTag := g.option? "app-tag"
  let start ← numberOption? g "start" 0
  let count ← numberOption? g "count" 50
  if appTag.isSome ∧ name.isNone then none else some (.instances name appTag start count)

/-- The names of the commands. -/
def commandNames : List String :=
  ["instances", "executions", "execution", "steps", "recent-steps", "running", "job-status",
    "step-status", "checkpoint", "purge", "readiness"]

/-- The options that a command knows. -/
def knownOptions (command : String) : List String :=
  if command = "instances" then ["name", "app-tag", "start", "count"] ++ sharedOptions
  else sharedOptions

/-- The command of a name with what was given behind it. -/
def command? (name : String) (g : Given) : Option Command :=
  match name, g.words with
  | "instances", [] => instancesCommand? g
  | "executions", [id] => (id? id).map .executions
  | "execution", [id] => (id? id).map .execution
  | "steps", [id] => (id? id).map .steps
  | "recent-steps", [id] => (id? id).map .recentSteps
  | "running", [jobName] => some (.running jobName)
  | "job-status", [id] => (id? id).map .jobStatus
  | "step-status", [id, step] => (id? id).map fun id => .stepStatus id step
  | "checkpoint", [id, step] => (id? id).map fun id => .checkpoint id step
  | "purge", [appTag] => some (.purge appTag)
  | "readiness", [] => some .readiness
  | _, _ => none

/-- The request for a command with the arguments behind it. -/
def ofCommand? (before : Given) (name : String) (rest : List String) : Option Request :=
  if commandNames.contains name then
    match scan (knownOptions name) false {} rest with
    | none => none
    | some none => some .help
    | some (some g) =>
      (command? name g).map fun command =>
        let path (option : String) := g.option? option <|> before.option? option
        .run ⟨path "config", path "db", command⟩
  else none

/-- Reads the arguments in front of a command, and goes on with the command. -/
def ofArgumentsFrom? (before : Given) : List String → Option Request
  | [] => none
  | text :: rest =>
    match argument text with
    | .ending => none
    | .word => ofCommand? before text rest
    | .short letters =>
      match letters.head? with
      | some 'V' => some .version
      | some 'h' => some .help
      | _ => none
    | .long "version" none => some .version
    | .long "help" none => some .help
    | .long name (some value) =>
      match before.add? sharedOptions name value with
      | some before => ofArgumentsFrom? before rest
      | none => none
    | .long name none =>
      match rest with
      | [] => none
      | value :: rest =>
        if argument value = .word then
          match before.add? sharedOptions name value with
          | some before => ofArgumentsFrom? before rest
          | none => none
        else none

/-- The request that arguments make. -/
def ofArguments? (arguments : List String) : Option Request := ofArgumentsFrom? {} arguments

end Request

end JobLedger
