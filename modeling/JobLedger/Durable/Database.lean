import JobLedger.Durable.Row
import JobLedger.Durable.Table

/-!
# The database of a ledger

The database of a durable store consists of six tables, of four indexes and of a table with the
version of its schema. Each of them may be missing. A statement that needs a missing table fails.
-/

namespace JobLedger

/-- The columns that have an index. -/
structure Indexes where
  instanceName : Bool
  instanceTag : Bool
  executionOwner : Bool
  stepOwner : Bool
  deriving DecidableEq

/-- The content of a database. -/
structure Database where
  /-- The rows of the table of schema versions. -/
  versions : Option (List Cell)
  instances : Option (Table InstanceRow)
  executions : Option (Table ExecutionRow)
  steps : Option (Table StepRow)
  /-- Status records of instances, under the rows of the instances. -/
  jobStatuses : Option (Table Cell)
  /-- Status records of steps, under the rows of step executions. -/
  stepStatuses : Option (Table Cell)
  /-- Checkpoint keys with their tokens. -/
  checkpoints : Option (List (Cell × Cell))
  indexes : Indexes
  deriving DecidableEq

namespace Database

/-- The database that nothing was ever written to. -/
def blank : Database := ⟨none, none, none, none, none, none, none, ⟨false, false, false, false⟩⟩

variable (operation : String) (db : Database)

/-- A table that a statement of an operation needs. -/
def need {α : Type} : Option α → Except StoreError α
  | some t => .ok t
  | none => .error (.failed operation)

/-- The instance that a column of an execution refers to. -/
def owner? (instances : Table InstanceRow) (r : ExecutionRow) : Option InstanceRow :=
  match r.instanceId with
  | .int row => instances.find? row
  | _ => none

/-- The execution that a column of a step execution refers to, with its row number. -/
def ownerOfStep? (executions : Table ExecutionRow) (r : StepRow) :
    Option (Int × ExecutionRow) :=
  match r.executionId with
  | .int row => (executions.find? row).map fun e => (row, e)
  | _ => none

/-- The executions of which the instance is there, with the instance. -/
def executionsWithOwner (instances : Table InstanceRow) (executions : Table ExecutionRow) :
    List (Int × ExecutionRow × InstanceRow) :=
  executions.rows.filterMap fun entry =>
    (owner? instances entry.2).map fun i => (entry.1, entry.2, i)

/-- The step executions of which the execution is there, with the execution. -/
def stepsWithOwner (executions : Table ExecutionRow) (steps : Table StepRow) :
    List (Int × StepRow × ExecutionRow) :=
  steps.rows.filterMap fun entry =>
    (ownerOfStep? executions entry.2).map fun e => (entry.1, entry.2, e.2)

end Database

end JobLedger
