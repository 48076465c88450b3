import JobLedger.Memory.Shelf

/-!
# Tables in memory

A ledger that lives in memory only keeps every kind of record in a list of its own. Records stand in
the order in which they were created, which for the numbered ones is the order of their identifiers,
and a counter for each kind of identifier holds the last number given out. A record is kept under the
identifier that it holds; tables whose keys are apart from the records are those of `Cabinet`.
-/

namespace JobLedger

open Text

/-- A ledger kept in memory. Instances, executions, step executions and status records are found
under the identifiers in them, so that these lists need no keys. -/
structure Memory where
  /-- The last number given to an instance. -/
  lastInstance : Nat
  /-- The last number given to an execution. -/
  lastExecution : Nat
  /-- The last number given to a step execution. -/
  lastStep : Nat
  instances : List JobInstance
  executions : List JobExecution
  steps : List StepExecution
  jobStatuses : List JobStatus
  stepStatuses : List StepStatus
  /-- Checkpoint keys with their tokens. -/
  checkpoints : List (String × Option Octets)
  deriving DecidableEq

/-- A shelf of records that hold their keys. -/
def Shelf.ofRecords {σ κ ρ : Type} [DecidableEq κ] (key : ρ → κ) (rows : σ → List ρ)
    (set : σ → List ρ → σ) : Shelf σ κ ρ where
  find? k s := (rows s).find? fun r => key r = k
  rows := rows
  add _ r s := set s (rows s ++ [r])
  alter k f s := set s ((rows s).map fun r => if key r = k then f r else r)
  withdraw goes s := set s ((rows s).filter fun r => !goes (key r))

namespace Memory

/-- The ledger that nothing was ever written to. -/
def empty : Memory := ⟨0, 0, 0, [], [], [], [], [], []⟩

instance : KeepsTables Memory where
  instanceNumbers := ⟨lastInstance, fun n m => { m with lastInstance := n }⟩
  executionNumbers := ⟨lastExecution, fun n m => { m with lastExecution := n }⟩
  stepNumbers := ⟨lastStep, fun n m => { m with lastStep := n }⟩
  instances := .ofRecords JobInstance.id instances fun m rows => { m with instances := rows }
  executions := .ofRecords JobExecution.id executions fun m rows => { m with executions := rows }
  steps := .ofRecords StepExecution.id steps fun m rows => { m with steps := rows }
  jobStatuses :=
    .ofRecords JobStatus.instanceId jobStatuses fun m rows => { m with jobStatuses := rows }
  stepStatuses :=
    .ofRecords StepStatus.statusId stepStatuses fun m rows => { m with stepStatuses := rows }
  checkpoints :=
    { find? := fun key m => m.checkpoints.lookup key
      rows := fun m => m.checkpoints.map Prod.snd
      add := fun key token m => { m with checkpoints := m.checkpoints ++ [(key, token)] }
      alter := fun key f m =>
        { m with
          checkpoints := m.checkpoints.map fun row =>
            if row.1 = key then (row.1, f row.2) else row }
      withdraw := fun goes m =>
        { m with checkpoints := m.checkpoints.filter fun row => !goes row.1 } }

end Memory

end JobLedger
