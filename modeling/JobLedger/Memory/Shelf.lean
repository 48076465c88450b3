import JobLedger.Call
import JobLedger.Name.Checkpoint

/-!
# Shelves

A ledger in memory keeps its rows on shelves, every row under a key, and has a counter for each kind
of identifier. The calls are written against shelves and counters, whatever these are made of. They
work in place, one step after the other: what a step has written stays, also if a later step fails.
-/

namespace JobLedger

open Text JobLedger.Action

/-- A table within a state: rows `ρ`, each under a key `κ`. -/
structure Shelf (σ κ ρ : Type) where
  /-- The row under a key. -/
  find? : κ → σ → Option ρ
  /-- All rows, in the order of their keys. -/
  rows : σ → List ρ
  /-- Puts a row under a key that is free. -/
  add : κ → ρ → σ → σ
  /-- Changes the row under a key. -/
  alter : κ → (ρ → ρ) → σ → σ
  /-- Takes away the rows whose keys satisfy a condition. -/
  withdraw : (κ → Bool) → σ → σ

/-- A counter within a state. -/
structure Counter (σ : Type) where
  /-- The last number given out. -/
  last : σ → Nat
  /-- Sets the last number given out. -/
  set : Nat → σ → σ

/-- A type of states that keep the tables of a ledger. -/
class KeepsTables (σ : Type) where
  instanceNumbers : Counter σ
  executionNumbers : Counter σ
  stepNumbers : Counter σ
  instances : Shelf σ InstanceId JobInstance
  executions : Shelf σ ExecutionId JobExecution
  steps : Shelf σ StepId StepExecution
  /-- Status records under the instances that they belong to. -/
  jobStatuses : Shelf σ InstanceId JobStatus
  /-- Status records under the step executions that entered their steps first. -/
  stepStatuses : Shelf σ StepId StepStatus
  /-- Tokens under checkpoint keys. -/
  checkpoints : Shelf σ String (Option Octets)

/-- The identifier behind the last number given out. -/
def Memory.nextId {entity : Entity} (last : Nat) : Except LedgerError (Id entity) :=
  (Id.ofNat? (last + 1)).elim (.error ⟨.storeUnavailable, .idsExhausted⟩) .ok

/-- Gives out the next number of a counter. -/
def Counter.issue {σ : Type} {entity : Entity} (counter : Counter σ) :
    Action LedgerError σ (Id entity) := do
  let s ← state
  let id ← ofExcept (Memory.nextId (counter.last s))
  edit (counter.set id.number)
  answer id

namespace Shelf

variable {σ κ ρ : Type} (shelf : Shelf σ κ ρ)

/-- The row under a key, which has to be there. -/
def fetch (key : κ) (missing : LedgerError) : Action LedgerError σ ρ := do
  let s ← state
  ofOption missing (shelf.find? key s)

/-- Makes sure that a key is free. -/
def ensureFree (key : κ) (taken : LedgerError) : Action LedgerError σ Unit := do
  let s ← state
  if (shelf.find? key s).isSome then fail taken

/-- Takes away the rows whose keys satisfy a condition, and answers with their number. -/
def drain (goes : κ → Bool) : Action LedgerError σ Nat := do
  let before ← state
  edit (shelf.withdraw goes)
  let after ← state
  answer ((shelf.rows before).length - (shelf.rows after).length)

end Shelf

end JobLedger
