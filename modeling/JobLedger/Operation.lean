import JobLedger.Progress.Checkpoint
import JobLedger.Progress.Partition
import JobLedger.Progress.Tracker

/-!
# Operations

All that can be asked of a ledger, as one type: the calls on its store, the moves of the tracker,
the work on restart tokens and on partitions. A run performs one operation after the other; an
operation that fails does not end it.
-/

namespace JobLedger

open Text

/-- An operation on a ledger. -/
inductive Operation : Type 1 where
  /-- A call on the store itself. -/
  | call (call : Call)
  | createJobStatus (id : InstanceId)
  | jobStatus (id : InstanceId)
  | jobStatusOf (id : ExecutionId)
  | updateJobStatus (status : JobStatus)
  | moveJob (id : InstanceId) (transition : JobTransition)
  | createStepStatus (id : StepId)
  | stepStatus (id : InstanceId) (step : String)
  | updateStepStatus (id : InstanceId) (step : String) (status : StepStatus)
  | incrementStartCount (id : StepId)
  | createCheckpoint (id : InstanceId) (step : String)
  | ensureCheckpoint (id : InstanceId) (step : String)
  | getCheckpoint (id : InstanceId) (step : String)
  | updateCheckpoint (id : InstanceId) (step : String) (pair : CheckpointPair)
  | getDecoded {α β : Type} (reader : Codec α) (writer : Codec β) (id : InstanceId)
      (step : String)
  | updateEncoded {α β : Type} (reader : Codec α) (writer : Codec β) (id : InstanceId)
      (step : String) (read : Option α) (written : Option β)
  | partitionTotals (root : ExecutionId) (step : String)
  | aggregatePartitions (root : ExecutionId) (step : String) (parent : StepId)
      (time : Timestamp) (final : Option (BatchStatus × String))
  | createPartitions (root : InstanceId) (step : String) (count : UInt32) (appTag : String)

namespace Operation

/-- The type of the answer to an operation. -/
@[reducible] def Answer : Operation → Type
  | call c => c.Answer
  | createJobStatus .. => JobStatus
  | jobStatus .. => JobStatus
  | jobStatusOf .. => JobStatus
  | updateJobStatus .. => Unit
  | moveJob .. => JobStatus
  | createStepStatus .. => StepStatus
  | stepStatus .. => StepStatus
  | updateStepStatus .. => Unit
  | incrementStartCount .. => UInt32
  | createCheckpoint .. => Unit
  | ensureCheckpoint .. => CheckpointPair
  | getCheckpoint .. => CheckpointPair
  | updateCheckpoint .. => Unit
  | @getDecoded α β .. => Option α × Option β
  | updateEncoded .. => Unit
  | partitionTotals .. => StepMetrics
  | aggregatePartitions .. => StepMetrics
  | createPartitions .. => List JobInstance

variable {σ : Type} [LedgerStore σ]

/-- Performs an operation. -/
def perform : (operation : Operation) → Action LedgerError σ operation.Answer
  | call c => LedgerStore.perform c
  | createJobStatus id => Tracker.createJobStatus id
  | jobStatus id => Tracker.jobStatus id
  | jobStatusOf id => Tracker.jobStatusOf id
  | updateJobStatus status => Tracker.updateJobStatus status
  | moveJob id transition => Tracker.moveJob id transition
  | createStepStatus id => Tracker.createStepStatus id
  | stepStatus id step => Tracker.stepStatus id step
  | updateStepStatus id step status => Tracker.updateStepStatus id step status
  | incrementStartCount id => Tracker.incrementStartCount id
  | createCheckpoint id step => Checkpoint.create id step
  | ensureCheckpoint id step => Checkpoint.ensure id step
  | getCheckpoint id step => Checkpoint.get id step
  | updateCheckpoint id step pair => Checkpoint.update id step pair
  | getDecoded reader writer id step => Checkpoint.getDecoded reader writer id step
  | updateEncoded reader writer id step read written =>
    Checkpoint.updateEncoded reader writer id step read written
  | partitionTotals root step => Partition.totals root step
  | aggregatePartitions root step parent time final =>
    Partition.aggregate root step parent time final
  | createPartitions root step count appTag => Partition.create root step count appTag

/-- The state after an operation, whether it succeeds or not. -/
def next (state : σ) (operation : Operation) : σ := (operation.perform state).state

/-- The state after a run of operations. -/
def run (state : σ) (operations : List Operation) : σ := operations.foldl next state

@[simp] theorem run_cons (state : σ) (operation : Operation) (rest : List Operation) :
    run state (operation :: rest) = run (next state operation) rest := rfl

end Operation

end JobLedger
