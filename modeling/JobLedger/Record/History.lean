import JobLedger.Id
import JobLedger.Record.Counters
import JobLedger.Record.Parameters
import JobLedger.Status
import JobLedger.Text.Utf8
import JobLedger.Time.Timestamp

/-!
# Execution history

What the ledger keeps of every job: the instance that stands for one submission, the executions of
an instance, and the step executions of an execution.
-/

namespace JobLedger

open Text

/-- One logical job submission. -/
structure JobInstance where
  id : InstanceId
  /-- The name of the job; a partition of another job has a name that starts with a colon. -/
  name : String
  /-- The tag of the tenant that the instance belongs to. -/
  appTag : String
  /-- The text that defines the job, when one was supplied. -/
  definition : Option String
  deriving DecidableEq

/-- A name stands for a partition of another job. -/
def isPartitionName (name : String) : Bool := name.toList.head? = some ':'

/-- The instance stands for a partition of another job. -/
def JobInstance.isPartition (i : JobInstance) : Bool := isPartitionName i.name

/-- One run of a job instance. -/
structure JobExecution where
  id : ExecutionId
  instanceId : InstanceId
  /-- The name of the instance. -/
  jobName : String
  createTime : Timestamp
  /-- The time the run was marked as started. -/
  startTime : Option Timestamp
  /-- The time the run was finalized. -/
  endTime : Option Timestamp
  /-- The time of the last change of status. -/
  updateTime : Timestamp
  status : BatchStatus
  /-- The exit status set when the run was finalized. -/
  exitStatus : Option String
  parameters : JobParameters
  deriving DecidableEq

/-- One run of one step within a job execution. -/
structure StepExecution where
  id : StepId
  executionId : ExecutionId
  stepName : String
  status : BatchStatus
  exitStatus : Option String
  metrics : StepMetrics
  startTime : Timestamp
  endTime : Option Timestamp
  /-- Data that the step keeps for itself. -/
  userData : Option Octets
  deriving DecidableEq

/-- A change to a step execution. Counts and data are always replaced; the end time and the two
statuses only where a new one is given. -/
structure StepUpdate where
  metrics : StepMetrics
  userData : Option Octets := none
  endTime : Option Timestamp := none
  status : Option BatchStatus := none
  exitStatus : Option String := none
  deriving DecidableEq

/-- The step execution after a change. -/
def StepUpdate.apply (u : StepUpdate) (s : StepExecution) : StepExecution :=
  { s with
    metrics := u.metrics
    userData := u.userData
    endTime := u.endTime <|> s.endTime
    status := u.status.getD s.status
    exitStatus := u.exitStatus <|> s.exitStatus }

/-- How many rows of each table a purge removed. -/
structure PurgeSummary where
  instances : Nat
  executions : Nat
  steps : Nat
  jobStatuses : Nat
  stepStatuses : Nat
  checkpoints : Nat
  deriving DecidableEq, Repr

end JobLedger
