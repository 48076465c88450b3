import JobLedger.Entries
import JobLedger.Memory.Shelf

/-!
# Tables under keys of their own

A cabinet keeps every row under a key that is apart from the row. Nothing makes the key the number in
the row: whatever stands in a cabinet, rows under keys that are not theirs included, the calls go by
the keys where they look up a row, and by the rows where they look through all of them.
-/

namespace JobLedger

open Text

/-- A shelf of entries, each a key with the row under it, in the order of the keys. -/
def Shelf.ofEntries {σ κ ρ : Type} [LT κ] [DecidableLT κ] [DecidableEq κ]
    (entries : σ → List (κ × ρ)) (set : σ → List (κ × ρ) → σ) : Shelf σ κ ρ where
  find? k s := (entries s).lookup k
  rows s := (entries s).map Prod.snd
  add k r s := set s (Entries.insert k r (entries s))
  alter k f s :=
    set s ((entries s).map fun entry => if entry.1 = k then (entry.1, f entry.2) else entry)
  withdraw goes s := set s ((entries s).filter fun entry => !goes entry.1)

/-- A ledger kept in memory, with the key of every row. -/
structure Cabinet where
  /-- The last number given to an instance. -/
  lastInstance : Nat
  /-- The last number given to an execution. -/
  lastExecution : Nat
  /-- The last number given to a step execution. -/
  lastStep : Nat
  instances : List (InstanceId × JobInstance)
  executions : List (ExecutionId × JobExecution)
  steps : List (StepId × StepExecution)
  jobStatuses : List (InstanceId × JobStatus)
  stepStatuses : List (StepId × StepStatus)
  checkpoints : List (String × Option Octets)
  deriving DecidableEq

namespace Cabinet

/-- The cabinet that nothing was ever put into. -/
def empty : Cabinet := ⟨0, 0, 0, [], [], [], [], [], []⟩

instance : KeepsTables Cabinet where
  instanceNumbers := ⟨lastInstance, fun n c => { c with lastInstance := n }⟩
  executionNumbers := ⟨lastExecution, fun n c => { c with lastExecution := n }⟩
  stepNumbers := ⟨lastStep, fun n c => { c with lastStep := n }⟩
  instances := .ofEntries instances fun c rows => { c with instances := rows }
  executions := .ofEntries executions fun c rows => { c with executions := rows }
  steps := .ofEntries steps fun c rows => { c with steps := rows }
  jobStatuses := .ofEntries jobStatuses fun c rows => { c with jobStatuses := rows }
  stepStatuses := .ofEntries stepStatuses fun c rows => { c with stepStatuses := rows }
  checkpoints := .ofEntries checkpoints fun c rows => { c with checkpoints := rows }

end Cabinet

end JobLedger
