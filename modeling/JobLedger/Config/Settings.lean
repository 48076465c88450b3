import JobLedger.Durable.Settings

/-!
# Configuration

A configuration holds the settings of a durable store and those of logging.
-/

namespace JobLedger

open Json

/-- How events are logged. -/
inductive LogFormat where
  /-- Lines to be read by people. -/
  | text
  /-- One object for each event. -/
  | json
  deriving DecidableEq, Repr

/-- The label of a format. -/
def LogFormat.label : LogFormat → String
  | text => "text"
  | json => "json"

/-- The format with a given label. -/
def LogFormat.ofLabel? (label : String) : Option LogFormat :=
  [text, json].find? fun format => format.label = label

/-- The settings of logging. -/
structure LogSettings where
  /-- Which events are logged, where the environment does not say so. -/
  filter : String := "info"
  format : LogFormat := .text
  deriving DecidableEq

/-- A configuration. -/
structure LedgerConfig where
  store : StoreSettings
  logging : LogSettings := {}
  deriving DecidableEq

namespace LogSettings

/-- The names of the fields. -/
def fields : List String := ["filter", "format"]

/-- The settings as an object. -/
def form (s : LogSettings) : Value :=
  .object [("filter", .text s.filter), ("format", .text s.format.label)]

end LogSettings

namespace LedgerConfig

/-- The names of the fields. -/
def fields : List String := ["store", "logging"]

/-- The configuration with default settings for a database at a path. -/
def ofPath (path : String) : LedgerConfig := { store := { path } }

/-- The configuration as an object. -/
def form (c : LedgerConfig) : Value :=
  .object [("store", c.store.form), ("logging", c.logging.form)]

end LedgerConfig

end JobLedger
