import JobLedger.Config.Limits
import JobLedger.Json.Form
import JobLedger.Toml.Reader

/-!
# Reading a configuration

A configuration is written in TOML, as a table of tables. Fields that are missing have their default
settings, and fields of other names are refused. A table may also be written as the array of its
fields in order, cut off where only defaults follow; items behind the last field do not count.
-/

namespace JobLedger

namespace Toml

/-- The values of the fields of a record. -/
def Value.columns? (names : List String) : Value → Option (List (Option Value))
  | table _ members =>
    if members.all fun member => names.contains member.1 then
      some (names.map fun name => members.lookup name)
    else none
  | array items =>
    some ((List.range names.length).map fun i => items[i]?)
  | _ => none

/-- The value is an array or a table without entries. -/
def Value.isVoid : Value → Bool
  | array [] => true
  | table _ [] => true
  | _ => false

/-- The label of an enumerated value: a string, or the only name of a table that binds it to
nothing. -/
def Value.label? : Value → Option String
  | text label => some label
  | table _ [(label, value)] => if value.isVoid then some label else none
  | _ => none

/-- The text of a string. -/
def Value.text? : Value → Option String
  | text s => some s
  | _ => none

/-- The number of an integer that fits in 64 bits. -/
def Value.word? : Value → Option UInt64
  | int i => if 0 ≤ i ∧ i < UInt64.size then some (UInt64.ofNat i.toNat) else none
  | _ => none

/-- A field with a default setting. -/
def orDefault {α : Type} (default : α) (read : Value → Option α) : Option Value → Option α
  | some value => read value
  | none => some default

end Toml

open Toml

/-- The settings of a store in a TOML value. Only the path has no default. -/
def StoreSettings.ofToml? (value : Value) : Option StoreSettings := do
  match ← value.columns? StoreSettings.fields with
  | [path, busyTimeout, journalMode, syncMode, poolSize] =>
    let path ← (← path).text?
    let default : StoreSettings := { path }
    some ⟨path, ← orDefault default.busyTimeout Value.word? busyTimeout,
      ← orDefault default.journalMode (fun v => v.label?.bind JournalMode.ofLabel?) journalMode,
      ← orDefault default.syncMode (fun v => v.label?.bind SyncMode.ofLabel?) syncMode,
      ← orDefault default.poolSize Value.word? poolSize⟩
  | _ => none

/-- The settings of logging in a TOML value. -/
def LogSettings.ofToml? (value : Value) : Option LogSettings := do
  match ← value.columns? LogSettings.fields with
  | [filter, format] =>
    let default : LogSettings := {}
    some ⟨← orDefault default.filter Value.text? filter,
      ← orDefault default.format (fun v => v.label?.bind LogFormat.ofLabel?) format⟩
  | _ => none

namespace LedgerConfig

/-- The configuration in a TOML document. -/
def ofToml? (members : Members) : Option LedgerConfig := do
  match ← (Value.table .headed members).columns? LedgerConfig.fields with
  | [store, logging] =>
    some ⟨← StoreSettings.ofToml? (← store), ← orDefault {} LogSettings.ofToml? logging⟩
  | _ => none

/-- The configuration in a text. -/
def ofText (text : String) : Except ConfigError LedgerConfig :=
  match (Toml.read? text).bind ofToml? with
  | some config => config.validate
  | none => .error .parse

end LedgerConfig

end JobLedger
