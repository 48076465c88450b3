import JobLedger.Config.Settings
import JobLedger.Files.Path
import JobLedger.Text.Blank

/-!
# Limits of a configuration

A configuration is refused unless its settings lie within hard limits. Paths and filters are
measured without the white space at their ends.
-/

namespace JobLedger

open Files Text

/-- What is wrong with a configuration. -/
inductive ConfigProblem where
  | storePathEmpty
  | storePathLong
  | storeNameLong
  | busyTimeout
  | poolSize
  | filterEmpty
  | filterLong
  /-- The path of the configuration file is too long. -/
  | configPathLong
  /-- A name on the path of the configuration file is too long. -/
  | configNameLong
  | fileLarge
  | fileNotText
  deriving DecidableEq, Repr

/-- The wording of a problem. -/
def ConfigProblem.text : ConfigProblem → String
  | storePathEmpty => "store.path must be non-empty"
  | storePathLong => "store.path exceeds max length"
  | storeNameLong => "store.path path component too long"
  | busyTimeout => "store.busy_timeout_ms must be between 1 and 600000"
  | poolSize => "store.read_pool_size must be between 1 and 64"
  | filterEmpty => "logging.filter must be non-empty"
  | filterLong => "logging.filter exceeds 256 characters"
  | configPathLong => "config path exceeds max length"
  | configNameLong => "config path component too long"
  | fileLarge => "config file exceeds size limit"
  | fileNotText => "config file must be utf-8"

/-- Why there is no configuration. -/
inductive ConfigError where
  /-- The file cannot be read. -/
  | io
  /-- The text is not one of a configuration. -/
  | parse
  | invalid (problem : ConfigProblem)
  deriving DecidableEq, Repr

/-- The wording of an error. -/
def ConfigError.message : ConfigError → String
  | io => "config io error: the file cannot be read"
  | parse => "config parse error: the text is no configuration"
  | invalid problem => "invalid config: " ++ problem.text

/-- The longest time to wait for a lock, in milliseconds. -/
def busyTimeoutLimit : Nat := 600000

/-- The most octets of a filter. -/
def filterLimit : Nat := 256

/-- The problem of the path of a database. -/
def storePathProblem? (path : String) : Option ConfigProblem :=
  let path := trimmed path
  if path = "" then some .storePathEmpty
  else if pathLimit < path.utf8ByteSize then some .storePathLong
  else if hasLongName path then some .storeNameLong
  else none

/-- The problem of the settings of a store. -/
def StoreSettings.problem? (s : StoreSettings) : Option ConfigProblem :=
  match storePathProblem? s.path with
  | some problem => some problem
  | none =>
    if s.busyTimeout = 0 ∨ busyTimeoutLimit < s.busyTimeout.toNat then some .busyTimeout
    else if s.poolSize = 0 ∨ poolLimit < s.poolSize.toNat then some .poolSize
    else none

/-- The problem of the settings of logging. -/
def LogSettings.problem? (s : LogSettings) : Option ConfigProblem :=
  let filter := trimmed s.filter
  if filter = "" then some .filterEmpty
  else if filterLimit < filter.utf8ByteSize then some .filterLong
  else none

/-- The first problem of a configuration. -/
def LedgerConfig.problem? (c : LedgerConfig) : Option ConfigProblem :=
  c.store.problem? <|> c.logging.problem?

/-- A configuration without problems. -/
def LedgerConfig.validate (c : LedgerConfig) : Except ConfigError LedgerConfig :=
  match c.problem? with
  | none => .ok c
  | some problem => .error (.invalid problem)

end JobLedger
