import JobLedger.Memory.Cabinet
import JobLedger.Memory.Progress
import JobLedger.Memory.Tables

/-!
# The store in memory

Every call on a store has its answer in the tables of a ledger in memory. No call reports an event.
-/

namespace JobLedger

namespace Tables

open JobLedger.Action KeepsTables

variable {σ : Type} [KeepsTables σ]

/-- Answers a call. -/
def perform : (call : Call) → Action LedgerError σ call.Answer
  | .createInstance name appTag definition => addInstance name appTag definition
  | .createPartition name appTag => addInstance name.encode appTag none
  | .findInstance id => look fun s => .ok (instances.find? id s)
  | .tagOfInstance id => look (tagOfInstance id)
  | .countInstances name appTag => look fun s => .ok (named name appTag s).length
  | .pageInstances name appTag start count =>
    look fun s => .ok (pageInstances name appTag start count s)
  | .externalInstances => look fun s => .ok (externalInstances s)
  | .createExecution id parameters status time => addExecution id parameters status time
  | .markStarted id time => markStarted id time
  | .setExecutionStatus id status time => setExecutionStatus id status time
  | .finalizeExecution id status exitStatus time => finalizeExecution id status exitStatus time
  | .findExecution id => look fun s => .ok (executions.find? id s)
  | .executionsOf id => look fun s => .ok (executionsOf id s)
  | .runningExecutions jobName => look fun s => .ok (runningExecutions jobName s)
  | .instanceOf id => look fun s => (execution id s).map JobExecution.instanceId
  | .parametersOf id => look fun s => (execution id s).map JobExecution.parameters
  | .tagOfExecution id => look (tagOfExecution id)
  | .latestExecution id => look fun s => .ok (latestExecution id s)
  | .createStep id step metrics time => addStep id step metrics time
  | .updateStep id update => alterStep id update
  | .findStep id => look fun s => .ok (steps.find? id s)
  | .stepsOf id => look fun s => .ok (stepsOf id s)
  | .recentSteps id => look fun s => .ok (recentSteps id s)
  | .partitionMetrics root step => look fun s => .ok (partitionMetrics root step s)
  | .purge appTag => removeTag appTag
  | .readiness => answer ()
  | .createJobStatus id => addJobStatus id
  | .findJobStatus id => look fun s => .ok (jobStatuses.find? id s)
  | .updateJobStatus status => replaceJobStatus status
  | .jobStatusOf id => look (jobStatusOf id)
  | .createStepStatus id => addStepStatus id
  | .findStepStatus id step => look fun s => .ok (findStepStatus id step s)
  | .updateStepStatus status => replaceStepStatus status
  | .incrementStartCount id => countStart id
  | .createPair id step => addPair id step
  | .findPair id step => look (findPair id step)
  | .updatePair id step pair => replacePair id step pair

end Tables

instance : LedgerStore Memory := ⟨Tables.perform⟩

instance : LedgerStore Cabinet := ⟨Tables.perform⟩

end JobLedger
