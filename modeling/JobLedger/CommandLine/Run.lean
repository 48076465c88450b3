import JobLedger.CommandLine.Request
import JobLedger.Config.Loading
import JobLedger.Files.Session
import JobLedger.Json.Printer
import JobLedger.Log.Filter

/-!
# Running a request

A command is run in four steps: the configuration is found, the log filter is checked, the ledger is
opened, and the command is performed. What the command has written to the standard output stays
there, however the run ends; an error goes to the standard error.
-/

namespace JobLedger

open JobLedger.Action Json

/-- What the environment of a program says. -/
structure Environment where
  /-- The path of the configuration. -/
  config : Option String
  /-- The log filter. -/
  filter : Option String
  deriving DecidableEq

/-- Why a command failed. -/
inductive RunError where
  | config (e : ConfigError)
  /-- The log filter in effect is none. -/
  | filter (directive : String)
  /-- The ledger under a path could not be opened. -/
  | opening (path : String) (e : StoreError)
  | ledger (e : LedgerError)
  deriving DecidableEq

/-- The wording of an error. -/
def RunError.message : RunError → String
  | config e => e.message
  | filter directive => "invalid log filter " ++ directive ++ ": a directive is malformed"
  | opening path e => "cannot open ledger " ++ path ++ ": " ++ e.message
  | ledger e => e.message

namespace Invocation

/-- The configuration to run under. The path of a database takes the place of a configuration file
that is not asked for, and of the path in the one that is. -/
def configuration (env : Environment) (i : Invocation) (t : FileTree) :
    Except ConfigError LedgerConfig :=
  match i.config, i.database with
  | none, some path => (LedgerConfig.ofPath path).validate
  | config, none => do (← LedgerConfig.load t config env.config).validate
  | config, some path => do
    let loaded ← LedgerConfig.load t config env.config
    { loaded with store := { loaded.store with path } : LedgerConfig }.validate

/-- Refuses a log filter that is none. -/
def checkFilter (env : Environment) (s : LogSettings) : Except RunError Unit :=
  let directive := Log.directive env.filter s.filter
  if Log.isFilter directive then .ok () else .error (.filter directive)

/-- An action of a session on its ledger, with which the session is over. -/
def onSession {ε α : Type} (session : Session) (x : Action ε (Console OpenLedger) α) :
    Action ε (Console FileTree) α :=
  within (fun c => ⟨⟨c.inner, session⟩, c.output⟩)
    (fun c l => ⟨if c.inner.isAttached session then l.inner.files
      else l.inner.files.detach session, l.output⟩) x

/-- Runs a command. -/
def run (env : Environment) (i : Invocation) : Action RunError (Console FileTree) Unit := do
  let config ← Console.quietly (look fun t => (i.configuration env t).mapError .config)
  ofExcept (checkFilter env config.logging)
  let path := config.store.path
  let session ← Console.quietly (mapError (.opening path) (FileTree.openStore config.store))
  report (.ledgerOpened path)
  mapError .ledger (onSession session i.command.perform)

end Invocation

/-- How a program ends. -/
inductive Ending where
  | printed (text : String)
  /-- The program failed, with a text printed before. -/
  | failed {text : String} (e : RunError)
  /-- The arguments make no request. -/
  | misused
  deriving DecidableEq

/-- The name and the version of the program. -/
def versionText : String := "batch-ledger 0.1.0\n"

/-- How the program is used. -/
def usageText : String :=
  "Usage: batch-ledger [--config PATH] [--db PATH] COMMAND\n\n" ++
    "Commands:\n" ++
    "  instances [--name NAME [--app-tag TAG]] [--start N] [--count N]\n" ++
    "  executions INSTANCE\n  execution EXECUTION\n  steps EXECUTION\n" ++
    "  recent-steps INSTANCE\n  running NAME\n  job-status INSTANCE\n" ++
    "  step-status INSTANCE STEP\n  checkpoint INSTANCE STEP\n  purge TAG\n  readiness\n"

namespace Ending

/-- What is written to the standard output. -/
def output : Ending → String
  | printed text | @failed text _ => text
  | misused => ""

/-- What is written to the standard error. -/
def complaint : Ending → String
  | printed _ => ""
  | failed e => e.message ++ "\n"
  | misused => usageText

/-- The exit code. -/
def exitCode : Ending → UInt32
  | printed _ => 0
  | failed _ => 1
  | misused => 2

end Ending

/-- What of the files a program sees that has nothing in memory yet. -/
def FileTree.onDisk (t : FileTree) : FileTree := { t with memory := [] }

/-- What the program does with its arguments. It does not see what others have in memory, and what
it has there itself is gone in the end. -/
def answerArguments (env : Environment) (arguments : List String) (t : FileTree) :
    Ending × FileTree :=
  match Request.ofArguments? arguments with
  | none => (.misused, t)
  | some .version => (.printed versionText, t)
  | some .help => (.printed usageText, t)
  | some (.run invocation) =>
    let outcome := invocation.run env ⟨t.onDisk, ""⟩
    let text := outcome.state.output
    let ending := match outcome.answer with
      | .ok () => .printed text
      | .error e => @Ending.failed text e
    (ending, { outcome.state.inner with memory := t.memory })

end JobLedger
