import JobLedger.Error
import JobLedger.Json.Form

/-!
# Events

The ledger reports what it does as a sequence of events. An event has a level, a message and named
fields.
-/

namespace JobLedger

open Json

namespace Event

/-- How much an event matters. -/
inductive Level where
  | debug
  | info
  | warn
  deriving DecidableEq, Repr

/-- The label of a level. -/
def Level.label : Level → String
  | debug => "DEBUG"
  | info => "INFO"
  | warn => "WARN"

end Event

/-- Something that the ledger did. -/
inductive Event where
  | jobStatusCreated (id : InstanceId)
  | jobStatusUpdated (id : InstanceId) (origin target : BatchStatus)
  | stepStatusCreated (id : StepId)
  | stepStatusUpdated (id : InstanceId) (step : String) (stepId : StepId) (status : BatchStatus)
  | startCountIncremented (id : StepId) (count : UInt32)
  | transitionRejected (holder : StatusHolder) (target : BatchStatus)
  | checkpointPairCreated (id : InstanceId) (step : String)
  | checkpointPairUpdated (id : InstanceId) (step : String) (reader writer : Bool)
  | partitionMetricsSummed (root : InstanceId) (step : String) (partitions : Nat)
  | partitionMetricsAggregated (root : ExecutionId) (step : String) (parent : StepId)
      (written : UInt64)
  | jobStatusStored (id : InstanceId)
  | stepStatusStored (id : StepId)
  | checkpointPairStored (id : InstanceId) (step : String)
  | jobInstanceCreated (id : InstanceId) (name appTag : String)
  | jobExecutionCreated (id : InstanceId) (execution : ExecutionId) (status : BatchStatus)
  | jobExecutionUpdated (execution : ExecutionId) (operation : String)
  | stepExecutionCreated (execution : ExecutionId) (id : StepId) (step : String)
  | stepExecutionUpdated (id : StepId) (read written : UInt64)
  | partitionRowsLoaded (root : InstanceId) (step : String) (rows : Nat)
  | ledgerPurged (appTag : String) (summary : PurgeSummary)
  | journalModeKept (requested applied : String)
  | schemaObjectCreated (kind name : String)
  | storeOpened (path : String) (poolSize : Nat) (journalMode : String)
  | ledgerOpened (path : String)
  deriving DecidableEq

namespace Event

/-- The level of an event. -/
def level : Event → Level
  | transitionRejected .. | journalModeKept .. => .warn
  | partitionMetricsAggregated .. | ledgerPurged .. | schemaObjectCreated .. => .info
  | _ => .debug

/-- The message of an event. -/
def message : Event → String
  | jobStatusCreated .. => "job status created"
  | jobStatusUpdated .. => "job status updated"
  | stepStatusCreated .. => "step status created"
  | stepStatusUpdated .. => "step status updated"
  | startCountIncremented .. => "step start count incremented"
  | transitionRejected .. => "rejected transition out of ABANDONED"
  | checkpointPairCreated .. => "checkpoint pair created"
  | checkpointPairUpdated .. => "checkpoint pair updated"
  | partitionMetricsSummed .. => "partition metrics summed"
  | partitionMetricsAggregated .. => "partition metrics aggregated"
  | jobStatusStored .. => "job status stored"
  | stepStatusStored .. => "step status stored"
  | checkpointPairStored .. => "checkpoint pair stored"
  | jobInstanceCreated .. => "job instance created"
  | jobExecutionCreated .. => "job execution created"
  | jobExecutionUpdated .. => "job execution updated"
  | stepExecutionCreated .. => "step execution created"
  | stepExecutionUpdated .. => "step execution updated"
  | partitionRowsLoaded .. => "partition rows loaded"
  | ledgerPurged .. => "ledger purged"
  | journalModeKept .. => "sqlite kept a different journal mode"
  | schemaObjectCreated .. => "ledger schema object created"
  | storeOpened .. => "sqlite ledger store opened"
  | ledgerOpened .. => "ledger opened"

/-- The fields of an event. -/
def fields : Event → List (String × Value)
  | jobStatusCreated id | jobStatusStored id => [("job_instance_id", toJson id)]
  | jobStatusUpdated id origin target =>
    [("job_instance_id", toJson id), ("from", toJson origin), ("to", toJson target)]
  | stepStatusCreated id | stepStatusStored id => [("step_execution_id", toJson id)]
  | stepStatusUpdated id step stepId status =>
    [("job_instance_id", toJson id), ("step_name", toJson step),
      ("step_execution_id", toJson stepId), ("batch_status", toJson status)]
  | startCountIncremented id count => [("status_id", toJson id), ("start_count", toJson count)]
  | transitionRejected holder target =>
    [("context", toJson holder.text), ("to", toJson target)]
  | checkpointPairCreated id step | checkpointPairStored id step =>
    [("job_instance_id", toJson id), ("step_name", toJson step)]
  | checkpointPairUpdated id step reader writer =>
    [("job_instance_id", toJson id), ("step_name", toJson step),
      ("reader_present", .bool reader), ("writer_present", .bool writer)]
  | partitionMetricsSummed root step partitions =>
    [("root", toJson root), ("step_name", toJson step), ("partitions", toJson partitions)]
  | partitionMetricsAggregated root step parent written =>
    [("root_execution_id", toJson root), ("step_name", toJson step),
      ("parent_step_execution_id", toJson parent), ("write_count", toJson written)]
  | jobInstanceCreated id name appTag =>
    [("job_instance_id", toJson id), ("name", toJson name), ("app_tag", toJson appTag)]
  | jobExecutionCreated id execution status =>
    [("job_instance_id", toJson id), ("job_execution_id", toJson execution),
      ("batch_status", toJson status)]
  | jobExecutionUpdated execution operation =>
    [("job_execution_id", toJson execution), ("context", toJson operation)]
  | stepExecutionCreated execution id step =>
    [("job_execution_id", toJson execution), ("step_execution_id", toJson id),
      ("step_name", toJson step)]
  | stepExecutionUpdated id read written =>
    [("step_execution_id", toJson id), ("read_count", toJson read),
      ("write_count", toJson written)]
  | partitionRowsLoaded root step rows =>
    [("root", toJson root), ("step_name", toJson step), ("rows", toJson rows)]
  | ledgerPurged appTag summary =>
    [("app_tag", toJson appTag), ("job_instances", toJson summary.instances),
      ("job_executions", toJson summary.executions), ("step_executions", toJson summary.steps),
      ("checkpoints", toJson summary.checkpoints)]
  | journalModeKept requested applied =>
    [("requested", toJson requested), ("applied", toJson applied)]
  | schemaObjectCreated kind name => [("kind", toJson kind), ("name", toJson name)]
  | storeOpened path poolSize journalMode =>
    [("path", toJson path), ("read_pool_size", toJson poolSize),
      ("journal_mode", toJson journalMode)]
  | ledgerOpened path => [("path", toJson path)]

/-- An event as an array of its level, its message and its fields. -/
def form (event : Event) : Value :=
  .array [.text event.level.label, .text event.message, .object event.fields]

end Event

end JobLedger
