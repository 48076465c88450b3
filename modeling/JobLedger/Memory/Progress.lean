import JobLedger.Memory.History

/-!
# Progress in memory

The calls on status records and restart tokens of a ledger in memory. Those that change the ledger
check first and write then, as those on the history do.
-/

namespace JobLedger.Tables

open JobLedger.Action KeepsTables

variable {σ : Type} [KeepsTables σ]

/-- Adds the status record of an instance. -/
def addJobStatus (id : InstanceId) : Action LedgerError σ JobStatus := do
  let _ ← instances.fetch id ⟨.notFound, .jobInstance id⟩
  jobStatuses.ensureFree id ⟨.alreadyExists, .jobStatus id⟩
  let status := JobStatus.fresh id
  edit (jobStatuses.add id status)
  answer status

/-- Replaces the status record of an instance. -/
def replaceJobStatus (status : JobStatus) : Action LedgerError σ Unit := do
  let _ ← jobStatuses.fetch status.instanceId ⟨.notFound, .jobStatus status.instanceId⟩
  edit (jobStatuses.alter status.instanceId fun _ => status)

/-- The status record of the instance of an execution. -/
def jobStatusOf (id : ExecutionId) (s : σ) : Except LedgerError (Option JobStatus) := do
  let e ← execution id s
  .ok (jobStatuses.find? e.instanceId s)

/-- Adds the status record kept under a step execution. -/
def addStepStatus (id : StepId) : Action LedgerError σ StepStatus := do
  let _ ← steps.fetch id ⟨.noSuchExecution, .stepExecution id⟩
  stepStatuses.ensureFree id ⟨.alreadyExists, .stepStatus id⟩
  let status := StepStatus.fresh id
  edit (stepStatuses.add id status)
  answer status

/-- The status record of a step of an instance: that of its first step execution that has one. -/
def findStepStatus (id : InstanceId) (step : String) (s : σ) : Option StepStatus :=
  ((stepsOfInstance id s).filter fun row => row.stepName = step).findSome? fun row =>
    stepStatuses.find? row.id s

/-- Replaces the status record of a step. -/
def replaceStepStatus (status : StepStatus) : Action LedgerError σ Unit := do
  let _ ← stepStatuses.fetch status.statusId ⟨.notFound, .stepStatus status.statusId⟩
  edit (stepStatuses.alter status.statusId fun _ => status)

/-- Counts one more start of a step. -/
def countStart (id : StepId) : Action LedgerError σ UInt32 := do
  let status ← stepStatuses.fetch id ⟨.notFound, .stepStatus id⟩
  let count ← ofExcept
    (if status.startCount.toNat + 1 < UInt32.size then .ok (status.startCount + 1)
    else .error ⟨.invalid, .startCountOverflow id⟩)
  edit (stepStatuses.alter id fun _ => { status with startCount := count })
  answer count

/-- Adds a pair without tokens, one row after the other. -/
def addPair (id : InstanceId) (step : String) : Action LedgerError σ Unit := do
  ensureStepName step
  let reader := (CheckpointKey.ofPair id step .reader).encode
  let writer := (CheckpointKey.ofPair id step .writer).encode
  checkpoints.ensureFree reader ⟨.alreadyExists, .checkpointPair id step⟩
  checkpoints.ensureFree writer ⟨.alreadyExists, .checkpointPair id step⟩
  edit (checkpoints.add reader none)
  edit (checkpoints.add writer none)

/-- The tokens of a step. -/
def findPair (id : InstanceId) (step : String) (s : σ) :
    Except LedgerError (Option CheckpointPair) :=
  let key := CheckpointKey.ofPair id step
  match checkpoints.find? (key .reader).encode s, checkpoints.find? (key .writer).encode s with
  | none, none => .ok none
  | some reader, some writer => .ok (some ⟨reader, writer⟩)
  | _, _ => .error ⟨.decodeFailure, .halfPair id step⟩

/-- Replaces the tokens of a step, one row after the other. -/
def replacePair (id : InstanceId) (step : String) (pair : CheckpointPair) :
    Action LedgerError σ Unit := do
  let reader := (CheckpointKey.ofPair id step .reader).encode
  let writer := (CheckpointKey.ofPair id step .writer).encode
  let _ ← checkpoints.fetch reader ⟨.notFound, .checkpointPair id step⟩
  let _ ← checkpoints.fetch writer ⟨.notFound, .checkpointPair id step⟩
  edit (checkpoints.alter reader fun _ => pair.reader)
  edit (checkpoints.alter writer fun _ => pair.writer)

end JobLedger.Tables
