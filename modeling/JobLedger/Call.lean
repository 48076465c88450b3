import JobLedger.Action
import JobLedger.Name.Partition
import JobLedger.Name.Step

/-!
# Calls on a store

A store keeps the ledger. It answers a fixed set of calls, on the history of jobs, on their status
and on their restart tokens; each call has its own type of answer. Everything else that the ledger
offers is made of these calls.
-/

namespace JobLedger

/-- A call on a store. -/
inductive Call where
  | createInstance (name appTag : String) (definition : Option String)
  | createPartition (name : PartitionName) (appTag : String)
  | findInstance (id : InstanceId)
  | tagOfInstance (id : InstanceId)
  | countInstances (name : String) (appTag : Option String)
  | pageInstances (name : String) (appTag : Option String) (start count : Nat)
  | externalInstances
  | createExecution (id : InstanceId) (parameters : JobParameters) (status : BatchStatus)
      (time : Timestamp)
  | markStarted (id : ExecutionId) (time : Timestamp)
  | setExecutionStatus (id : ExecutionId) (status : BatchStatus) (time : Timestamp)
  | finalizeExecution (id : ExecutionId) (status : BatchStatus) (exitStatus : String)
      (time : Timestamp)
  | findExecution (id : ExecutionId)
  | executionsOf (id : InstanceId)
  | runningExecutions (jobName : String)
  | instanceOf (id : ExecutionId)
  | parametersOf (id : ExecutionId)
  | tagOfExecution (id : ExecutionId)
  | latestExecution (id : InstanceId)
  | createStep (id : ExecutionId) (step : String) (metrics : StepMetrics) (time : Timestamp)
  | updateStep (id : StepId) (update : StepUpdate)
  | findStep (id : StepId)
  | stepsOf (id : ExecutionId)
  | recentSteps (id : InstanceId)
  | partitionMetrics (root : InstanceId) (step : String)
  | purge (appTag : String)
  | readiness
  | createJobStatus (id : InstanceId)
  | findJobStatus (id : InstanceId)
  | updateJobStatus (status : JobStatus)
  | jobStatusOf (id : ExecutionId)
  | createStepStatus (id : StepId)
  | findStepStatus (id : InstanceId) (step : String)
  | updateStepStatus (status : StepStatus)
  | incrementStartCount (id : StepId)
  | createPair (id : InstanceId) (step : String)
  | findPair (id : InstanceId) (step : String)
  | updatePair (id : InstanceId) (step : String) (pair : CheckpointPair)
  deriving DecidableEq

/-- The type of the answer to a call. -/
@[reducible] def Call.Answer : Call → Type
  | createInstance .. => JobInstance
  | createPartition .. => JobInstance
  | findInstance .. => Option JobInstance
  | tagOfInstance .. => String
  | countInstances .. => Nat
  | pageInstances .. => List InstanceId
  | externalInstances => List (InstanceId × String)
  | createExecution .. => ExecutionId
  | markStarted .. => Unit
  | setExecutionStatus .. => Unit
  | finalizeExecution .. => Unit
  | findExecution .. => Option JobExecution
  | executionsOf .. => List JobExecution
  | runningExecutions .. => List ExecutionId
  | instanceOf .. => InstanceId
  | parametersOf .. => JobParameters
  | tagOfExecution .. => String
  | latestExecution .. => Option ExecutionId
  | createStep .. => StepId
  | updateStep .. => Unit
  | findStep .. => Option StepExecution
  | stepsOf .. => List StepExecution
  | recentSteps .. => List StepExecution
  | partitionMetrics .. => List StepMetrics
  | purge .. => PurgeSummary
  | readiness => Unit
  | createJobStatus .. => JobStatus
  | findJobStatus .. => Option JobStatus
  | updateJobStatus .. => Unit
  | jobStatusOf .. => Option JobStatus
  | createStepStatus .. => StepStatus
  | findStepStatus .. => Option StepStatus
  | updateStepStatus .. => Unit
  | incrementStartCount .. => UInt32
  | createPair .. => Unit
  | findPair .. => Option CheckpointPair
  | updatePair .. => Unit

/-- A type of states that answer every call. -/
class LedgerStore (σ : Type) where
  /-- Answers a call. -/
  perform : (call : Call) → Action LedgerError σ call.Answer

export LedgerStore (perform)

/-- Refuses a text that is no step name. -/
def ensureStepName {σ : Type} (step : String) : Action LedgerError σ Unit :=
  match stepNameFault? step with
  | some fault => .fail ⟨.invalid, .stepName fault⟩
  | none => .answer ()

end JobLedger
