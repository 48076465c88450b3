import JobLedger.Json.Printer
import JobLedger.Progress.Checkpoint
import JobLedger.Progress.Tracker

/-!
# Commands

An operator looks at a ledger through commands, one at a time. Each of them asks a store, and writes
one JSON value to the standard output. All but one only read; purging is the one that changes the
ledger.
-/

namespace JobLedger

open JobLedger.Action Json

/-- Something that a program works on, beside its standard output. -/
structure Console (σ : Type) where
  inner : σ
  /-- What has been written to the standard output. -/
  output : String

namespace Console

variable {ε σ α : Type}

/-- An action that writes nothing. -/
def quietly (x : Action ε σ α) : Action ε (Console σ) α :=
  within inner (fun c s => { c with inner := s }) x

/-- Writes a text. The standard output takes whatever is written. -/
def write (text : String) : Action ε (Console σ) Unit :=
  edit fun c => { c with output := c.output ++ text }

/-- Writes a JSON value on lines of its own. -/
def writeJson (value : Value) : Action ε (Console σ) Unit := write (value.pretty ++ "\n")

instance [LedgerStore σ] : LedgerStore (Console σ) := ⟨fun call => quietly (LedgerStore.perform call)⟩

end Console

/-- A command of an operator. -/
inductive Command where
  /-- All instances that are no partitions or, with a name, a page of those of that name. -/
  | instances (name appTag : Option String) (start count : Nat)
  | executions (id : InstanceId)
  | execution (id : ExecutionId)
  | steps (id : ExecutionId)
  | recentSteps (id : InstanceId)
  | running (jobName : String)
  | jobStatus (id : InstanceId)
  | stepStatus (id : InstanceId) (step : String)
  | checkpoint (id : InstanceId) (step : String)
  | purge (appTag : String)
  | readiness
  deriving DecidableEq

namespace Command

open Console

variable {σ : Type} [LedgerStore σ]

/-- The instances of a list, all of which have to be there. -/
def findEach : List InstanceId → Action LedgerError σ (List JobInstance)
  | [] => answer []
  | id :: rest => do
    let found ← LedgerStore.perform (.findInstance id)
    let first ← ofOption ⟨.notFound, .jobInstance id⟩ found
    let others ← findEach rest
    answer (first :: others)

/-- Writes the identifiers and names of all instances that are no partitions. -/
def listInstances : Action LedgerError (Console σ) Unit := do
  let entries ← LedgerStore.perform .externalInstances
  writeJson (.array (entries.map fun entry =>
    .object [("id", toJson entry.1), ("name", .text entry.2)]))

/-- Writes a page of the instances of a name, with the number of all of them. -/
def pageInstances (name : String) (appTag : Option String) (start count : Nat) :
    Action LedgerError (Console σ) Unit := do
  let total ← LedgerStore.perform (.countInstances name appTag)
  let ids ← LedgerStore.perform (.pageInstances name appTag start count)
  let instances ← findEach ids
  writeJson (.object [("total", toJson total), ("instances", toJson instances)])

/-- Performs a command. -/
def perform : Command → Action LedgerError (Console σ) Unit
  | instances none _ _ _ => listInstances
  | instances (some name) appTag start count => pageInstances name appTag start count
  | executions id => do
    let rows ← LedgerStore.perform (.executionsOf id)
    writeJson (toJson rows)
  | execution id => do
    let found ← LedgerStore.perform (.findExecution id)
    let row ← ofOption ⟨.noSuchExecution, .jobExecution id⟩ found
    writeJson (toJson row)
  | steps id => do
    let rows ← LedgerStore.perform (.stepsOf id)
    writeJson (toJson rows)
  | recentSteps id => do
    let rows ← LedgerStore.perform (.recentSteps id)
    writeJson (toJson rows)
  | running jobName => do
    let ids ← LedgerStore.perform (.runningExecutions jobName)
    writeJson (toJson ids)
  | jobStatus id => do
    let status ← Tracker.jobStatus id
    writeJson (toJson status)
  | stepStatus id step => do
    let status ← Tracker.stepStatus id step
    writeJson (toJson status)
  | checkpoint id step => do
    let pair ← Checkpoint.get id step
    writeJson (toJson pair)
  | purge appTag => do
    let summary ← LedgerStore.perform (.purge appTag)
    writeJson (toJson summary)
  | readiness => do
    LedgerStore.perform .readiness
    writeJson (.object [("status", .text "ready")])

end Command

end JobLedger
