import JobLedger.Id
import JobLedger.Status
import JobLedger.Text.Utf8

/-!
# Progress records

Beside its history the ledger keeps where each job and each step stands now: a status record for
every job instance, a status record for every step of it, and the restart tokens of a step.
-/

namespace JobLedger

open Text

/-- Where a job instance stands. -/
structure JobStatus where
  instanceId : InstanceId
  /-- The step that runs now. -/
  currentStep : Option String
  status : BatchStatus
  exitStatus : Option String
  /-- The latest execution of the instance. -/
  latestExecution : Option ExecutionId
  /-- The step to resume at on the next restart. -/
  restartOn : Option String
  deriving DecidableEq

/-- The status of an instance that has just been created. -/
def JobStatus.fresh (instanceId : InstanceId) : JobStatus :=
  ⟨instanceId, none, .starting, none, none, none⟩

/-- Where a step of a job instance stands. -/
structure StepStatus where
  /-- The step execution that first entered the step; the record is kept under it. -/
  statusId : StepId
  /-- The step execution that runs now. -/
  stepId : StepId
  /-- The step execution of the run before. -/
  lastRunStep : Option StepId
  status : BatchStatus
  exitStatus : Option String
  /-- How often the step has been entered. -/
  startCount : UInt32
  /-- Data that the step carries from run to run. -/
  userData : Option Octets
  /-- The number of partitions of a partitioned step. -/
  partitions : Option UInt32
  deriving DecidableEq

/-- The status of a step that is entered for the first time. -/
def StepStatus.fresh (stepId : StepId) : StepStatus :=
  ⟨stepId, stepId, none, .starting, none, 0, none, none⟩

/-- The two ends of a step that keep a restart token. -/
inductive CheckpointKind where
  | reader
  | writer
  deriving DecidableEq, Repr

namespace CheckpointKind

/-- The label of an end of a step. -/
def label : CheckpointKind → String
  | reader => "READER"
  | writer => "WRITER"

/-- The end of a step with a given label. -/
def ofLabel? (label : String) : Option CheckpointKind :=
  [reader, writer].find? fun kind => kind.label = label

theorem ofLabel?_label (kind : CheckpointKind) : ofLabel? kind.label = some kind := by
  cases kind <;> decide

end CheckpointKind

/-- The restart tokens of a step. -/
structure CheckpointPair where
  reader : Option Octets
  writer : Option Octets
  deriving DecidableEq

namespace CheckpointPair

/-- A pair without tokens. -/
def empty : CheckpointPair := ⟨none, none⟩

/-- The token of one end. -/
def token (pair : CheckpointPair) : CheckpointKind → Option Octets
  | .reader => pair.reader
  | .writer => pair.writer

end CheckpointPair

end JobLedger
