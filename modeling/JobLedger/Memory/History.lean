import JobLedger.Distinct
import JobLedger.Entries
import JobLedger.Memory.Shelf
import JobLedger.Name.Partition

/-!
# History in memory

The calls on instances, executions and step executions of a ledger in memory. Those that change the
ledger do so in place. Nothing undoes what a call has written, so each of them checks first and
writes then.
-/

namespace JobLedger.Tables

open JobLedger.Action KeepsTables

variable {σ : Type} [KeepsTables σ]

/-- Adds an instance under the next number. -/
def addInstance (name appTag : String) (definition : Option String) :
    Action LedgerError σ JobInstance := do
  let id ← instanceNumbers.issue
  let i : JobInstance := ⟨id, name, appTag, definition⟩
  edit (instances.add id i)
  answer i

/-- The tag of an instance. -/
def tagOfInstance (id : InstanceId) (s : σ) : Except LedgerError String :=
  (instances.find? id s).elim (.error ⟨.notFound, .jobInstance id⟩) fun i => .ok i.appTag

/-- The instances of a name, and of a tag if one is given. -/
def named (name : String) (appTag : Option String) (s : σ) : List JobInstance :=
  (instances.rows s).filter fun i => i.name = name && appTag.all fun tag => i.appTag = tag

/-- The instances of a name with the latest first, from position `start` on, at most `count`. -/
def pageInstances (name : String) (appTag : Option String) (start count : Nat) (s : σ) :
    List InstanceId :=
  (((named name appTag s).reverse.drop start).take count).map JobInstance.id

/-- The instances that are no partitions, with their names, in the order of their numbers. -/
def externalInstances (s : σ) : List (InstanceId × String) :=
  ((instances.rows s).filter fun i => !i.isPartition).foldl
    (fun found i => Entries.insert i.id i.name found) []

/-- The execution of a given number, which has to be there. -/
def execution (id : ExecutionId) (s : σ) : Except LedgerError JobExecution :=
  (executions.find? id s).elim (.error ⟨.noSuchExecution, .jobExecution id⟩) .ok

/-- Adds an execution of an instance under the next number. -/
def addExecution (id : InstanceId) (parameters : JobParameters) (status : BatchStatus)
    (time : Timestamp) : Action LedgerError σ ExecutionId := do
  let i ← instances.fetch id ⟨.notFound, .jobInstance id⟩
  let execution ← executionNumbers.issue
  edit (executions.add execution
    ⟨execution, id, i.name, time, none, none, time, status, none, parameters⟩)
  answer execution

/-- Changes an execution that has to be there. -/
def alterExecution (id : ExecutionId) (f : JobExecution → JobExecution) :
    Action LedgerError σ Unit := do
  let _ ← look (execution id)
  edit (executions.alter id f)

/-- Marks an execution as started at a time. -/
def markStarted (id : ExecutionId) (time : Timestamp) : Action LedgerError σ Unit :=
  alterExecution id fun e =>
    { e with status := .started, startTime := some time, updateTime := time }

/-- Sets the status of an execution. -/
def setExecutionStatus (id : ExecutionId) (status : BatchStatus) (time : Timestamp) :
    Action LedgerError σ Unit :=
  alterExecution id fun e => { e with status := status, updateTime := time }

/-- Sets the status and the exit status that an execution ends with. -/
def finalizeExecution (id : ExecutionId) (status : BatchStatus) (exitStatus : String)
    (time : Timestamp) : Action LedgerError σ Unit :=
  alterExecution id fun e =>
    { e with
      status := status, exitStatus := some exitStatus, endTime := some time, updateTime := time }

/-- The executions of an instance, the latest first. -/
def executionsOf (id : InstanceId) (s : σ) : List JobExecution :=
  ((executions.rows s).filter fun e => e.instanceId = id).reverse

/-- The executions of jobs of a name that are on their way. -/
def runningExecutions (jobName : String) (s : σ) : List ExecutionId :=
  ((executions.rows s).filter fun e => e.jobName = jobName && e.status.isRunning).map
    JobExecution.id

/-- The tag of the instance of an execution. -/
def tagOfExecution (id : ExecutionId) (s : σ) : Except LedgerError String := do
  let e ← execution id s
  (instances.find? e.instanceId s).elim (.error ⟨.noSuchExecution, .jobExecution id⟩) fun i =>
    .ok i.appTag

/-- The later of two executions by time of creation; of two created at one time, the one of the
higher number. -/
def laterExecution (best : Option JobExecution) (e : JobExecution) : Option JobExecution :=
  match best with
  | none => some e
  | some b =>
    if b.createTime.millis < e.createTime.millis ∨
        b.createTime.millis = e.createTime.millis ∧ b.id.number ≤ e.id.number then
      some e
    else some b

/-- The execution of an instance that was created last. -/
def latestExecution (id : InstanceId) (s : σ) : Option ExecutionId :=
  (((executions.rows s).filter fun e => e.instanceId = id).foldl laterExecution none).map
    JobExecution.id

/-- Adds a step execution to an execution under the next number. -/
def addStep (id : ExecutionId) (step : String) (metrics : StepMetrics) (time : Timestamp) :
    Action LedgerError σ StepId := do
  ensureStepName step
  let _ ← look (execution id)
  let stepId ← stepNumbers.issue
  edit (steps.add stepId ⟨stepId, id, step, .starting, none, metrics, time, none, none⟩)
  answer stepId

/-- Refuses an update of a step execution whose execution has ended. -/
def checkStepUpdate (s : StepExecution) (owner : JobExecution) : Except LedgerError Unit :=
  if owner.status.isTerminal then
    .error ⟨.invalidTransition, .frozen s.id owner.id.number owner.status⟩
  else .ok ()

/-- Changes a step execution, unless its execution has ended. -/
def alterStep (id : StepId) (update : StepUpdate) : Action LedgerError σ Unit := do
  let s ← steps.fetch id ⟨.notFound, .stepExecution id⟩
  let owner ← look (execution s.executionId)
  ofExcept (checkStepUpdate s owner)
  let _ ← steps.fetch id ⟨.notFound, .stepExecution id⟩
  edit (steps.alter id update.apply)

/-- The step executions of an execution. -/
def stepsOf (id : ExecutionId) (s : σ) : List StepExecution :=
  (steps.rows s).filter fun step => step.executionId = id

/-- The step executions of all executions of an instance. -/
def stepsOfInstance (id : InstanceId) (s : σ) : List StepExecution :=
  (steps.rows s).filter fun step =>
    (executions.find? step.executionId s).any fun e => e.instanceId = id

/-- The latest step execution of each step name of an instance, the latest first. -/
def recentSteps (id : InstanceId) (s : σ) : List StepExecution :=
  distinctBy StepExecution.stepName (stepsOfInstance id s).reverse

/-- The counts of all step executions of the partitions of a step. -/
def partitionMetrics (root : InstanceId) (step : String) (s : σ) : List StepMetrics :=
  let partitions :=
    ((instances.rows s).filter fun i => PartitionName.belongsTo i.name root step).map
      JobInstance.id
  ((steps.rows s).filter fun step =>
    (executions.find? step.executionId s).any fun e => partitions.contains e.instanceId).map
      StepExecution.metrics

/-- Removes the instances of a tag and all that belongs to them, one table after the other. -/
def removeTag (appTag : String) : Action LedgerError σ PurgeSummary := do
  let s ← state
  let instanceIds := ((instances.rows s).filter fun i => i.appTag = appTag).map JobInstance.id
  let executionIds :=
    ((executions.rows s).filter fun e => instanceIds.contains e.instanceId).map JobExecution.id
  let stepIds :=
    ((steps.rows s).filter fun step => executionIds.contains step.executionId).map
      StepExecution.id
  let stepStatusCount ← stepStatuses.drain stepIds.contains
  let stepCount ← steps.drain stepIds.contains
  let jobStatusCount ← jobStatuses.drain instanceIds.contains
  let checkpointCount ← checkpoints.drain fun key =>
    instanceIds.any fun id => (CheckpointKey.instancePrefix id).toList.isPrefixOf key.toList
  let executionCount ← executions.drain executionIds.contains
  let instanceCount ← instances.drain instanceIds.contains
  answer ⟨instanceCount, executionCount, stepCount, jobStatusCount, stepStatusCount,
    checkpointCount⟩

end JobLedger.Tables
