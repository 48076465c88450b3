import JobLedger.Memory.Store

/-!
# Calls as a whole

What a call on a ledger in memory comes to, as one function: from the ledger to the answer and the
ledger afterwards, or to an error. The calls themselves work in place, and their steps have to be
proved equal to these functions; all that is said of whole calls then holds of them.
-/

namespace JobLedger

namespace Memory

open Text JobLedger.Action

section Lookup

variable (m : Memory)

/-- The instance of a given number. -/
def instance? (id : InstanceId) : Option JobInstance := m.instances.find? fun i => i.id = id

/-- The execution of a given number. -/
def execution? (id : ExecutionId) : Option JobExecution := m.executions.find? fun e => e.id = id

/-- The step execution of a given number. -/
def step? (id : StepId) : Option StepExecution := m.steps.find? fun s => s.id = id

/-- The status record of an instance. -/
def jobStatus? (id : InstanceId) : Option JobStatus :=
  m.jobStatuses.find? fun status => status.instanceId = id

/-- The status record kept under a step execution. -/
def stepStatus? (id : StepId) : Option StepStatus :=
  m.stepStatuses.find? fun status => status.statusId = id

/-- The token kept under a checkpoint key. -/
def token? (key : CheckpointKey) : Option (Option Octets) := m.checkpoints.lookup key.encode

/-- The execution of a given number, which has to be there. -/
def execution (id : ExecutionId) : Except LedgerError JobExecution :=
  (m.execution? id).elim (.error ⟨.noSuchExecution, .jobExecution id⟩) .ok

/-- The step executions of all executions of an instance. -/
def stepsOfInstance (id : InstanceId) : List StepExecution :=
  m.steps.filter fun s => (m.execution? s.executionId).any fun e => e.instanceId = id

/-- The ledger with one execution changed. -/
def modifyExecution (id : ExecutionId) (f : JobExecution → JobExecution) : Memory :=
  { m with executions := m.executions.map fun e => if e.id = id then f e else e }

/-- The ledger with one step execution changed. -/
def modifyStep (id : StepId) (f : StepExecution → StepExecution) : Memory :=
  { m with steps := m.steps.map fun s => if s.id = id then f s else s }

/-- The ledger with the status record of an instance replaced. -/
def setJobStatus (status : JobStatus) : Memory :=
  { m with
    jobStatuses := m.jobStatuses.map fun old =>
      if old.instanceId = status.instanceId then status else old }

/-- The ledger with the status record of a step replaced. -/
def setStepStatus (status : StepStatus) : Memory :=
  { m with
    stepStatuses := m.stepStatuses.map fun old =>
      if old.statusId = status.statusId then status else old }

/-- The ledger with the token under a checkpoint key replaced. -/
def setToken (key : CheckpointKey) (token : Option Octets) : Memory :=
  { m with
    checkpoints := m.checkpoints.map fun row =>
      if row.1 = key.encode then (row.1, token) else row }

end Lookup

/-! ## History -/

/-- Adds an instance. -/
def createInstance (name appTag : String) (definition : Option String) (m : Memory) :
    Except LedgerError (JobInstance × Memory) := do
  let id ← nextId m.lastInstance
  let i : JobInstance := ⟨id, name, appTag, definition⟩
  .ok (i, { m with lastInstance := id.number, instances := m.instances ++ [i] })

/-- The tag of an instance. -/
def tagOfInstance (id : InstanceId) (m : Memory) : Except LedgerError String :=
  (m.instance? id).elim (.error ⟨.notFound, .jobInstance id⟩) fun i => .ok i.appTag

/-- The instances of a name, and of a tag if one is given. -/
def named (name : String) (appTag : Option String) (m : Memory) : List JobInstance :=
  m.instances.filter fun i => i.name = name && appTag.all fun tag => i.appTag = tag

/-- The instances of a name with the latest first, from position `start` on, at most `count`. -/
def pageInstances (name : String) (appTag : Option String) (start count : Nat) (m : Memory) :
    List InstanceId :=
  (((m.named name appTag).reverse.drop start).take count).map JobInstance.id

/-- Adds an execution of an instance. -/
def createExecution (id : InstanceId) (parameters : JobParameters) (status : BatchStatus)
    (time : Timestamp) (m : Memory) : Except LedgerError (ExecutionId × Memory) :=
  match m.instance? id with
  | none => .error ⟨.notFound, .jobInstance id⟩
  | some i => do
    let execution ← nextId m.lastExecution
    let e : JobExecution :=
      ⟨execution, id, i.name, time, none, none, time, status, none, parameters⟩
    .ok (execution, { m with
      lastExecution := execution.number, executions := m.executions ++ [e] })

/-- Changes an execution that has to be there. -/
def changeExecution (id : ExecutionId) (f : JobExecution → JobExecution) (m : Memory) :
    Except LedgerError (Unit × Memory) := do
  discard (m.execution id)
  .ok ((), m.modifyExecution id f)

/-- Marks an execution as started at a time. -/
def markStarted (id : ExecutionId) (time : Timestamp) :
    Memory → Except LedgerError (Unit × Memory) :=
  changeExecution id fun e =>
    { e with status := .started, startTime := some time, updateTime := time }

/-- Sets the status of an execution. -/
def setExecutionStatus (id : ExecutionId) (status : BatchStatus) (time : Timestamp) :
    Memory → Except LedgerError (Unit × Memory) :=
  changeExecution id fun e => { e with status := status, updateTime := time }

/-- Sets the status and the exit status that an execution ends with. -/
def finalizeExecution (id : ExecutionId) (status : BatchStatus) (exitStatus : String)
    (time : Timestamp) : Memory → Except LedgerError (Unit × Memory) :=
  changeExecution id fun e =>
    { e with
      status := status, exitStatus := some exitStatus, endTime := some time, updateTime := time }

/-- The executions of an instance, the latest first. -/
def executionsOf (id : InstanceId) (m : Memory) : List JobExecution :=
  (m.executions.filter fun e => e.instanceId = id).reverse

/-- The executions of jobs of a name that are on their way. -/
def runningExecutions (jobName : String) (m : Memory) : List ExecutionId :=
  (m.executions.filter fun e => e.jobName = jobName && e.status.isRunning).map JobExecution.id

/-- The tag of the instance of an execution. -/
def tagOfExecution (id : ExecutionId) (m : Memory) : Except LedgerError String := do
  let e ← m.execution id
  (m.instance? e.instanceId).elim (.error ⟨.noSuchExecution, .jobExecution id⟩) fun i =>
    .ok i.appTag

/-- Adds a step execution to an execution. -/
def createStep (id : ExecutionId) (step : String) (metrics : StepMetrics) (time : Timestamp)
    (m : Memory) : Except LedgerError (StepId × Memory) := do
  discard (m.execution id)
  let stepId ← nextId m.lastStep
  let s : StepExecution := ⟨stepId, id, step, .starting, none, metrics, time, none, none⟩
  .ok (stepId, { m with lastStep := stepId.number, steps := m.steps ++ [s] })

/-- Changes a step execution, unless its execution has ended. -/
def updateStep (id : StepId) (update : StepUpdate) (m : Memory) :
    Except LedgerError (Unit × Memory) :=
  match m.step? id with
  | none => .error ⟨.notFound, .stepExecution id⟩
  | some s => do
    let owner ← m.execution s.executionId
    if owner.status.isTerminal then
      .error ⟨.invalidTransition, .frozen id owner.id.number owner.status⟩
    else .ok ((), m.modifyStep id update.apply)

/-- The step executions of an execution. -/
def stepsOf (id : ExecutionId) (m : Memory) : List StepExecution :=
  m.steps.filter fun s => s.executionId = id

/-- The latest step execution of each step name of an instance, the latest first. -/
def recentSteps (id : InstanceId) (m : Memory) : List StepExecution :=
  distinctBy StepExecution.stepName (m.stepsOfInstance id).reverse

/-- The counts of all step executions of the partitions of a step. -/
def partitionMetrics (root : InstanceId) (step : String) (m : Memory) : List StepMetrics :=
  let partitions :=
    (m.instances.filter fun i => PartitionName.belongsTo i.name root step).map JobInstance.id
  (m.steps.filter fun s =>
    (m.execution? s.executionId).any fun e => partitions.contains e.instanceId).map
      StepExecution.metrics

/-- Removes the instances of a tag and all that belongs to them. -/
def purge (appTag : String) (m : Memory) : PurgeSummary × Memory :=
  let instances := (m.instances.filter fun i => i.appTag = appTag).map JobInstance.id
  let executions :=
    (m.executions.filter fun e => instances.contains e.instanceId).map JobExecution.id
  let steps := (m.steps.filter fun s => executions.contains s.executionId).map StepExecution.id
  let goes (key : String) : Bool :=
    instances.any fun id => (CheckpointKey.instancePrefix id).toList.isPrefixOf key.toList
  let rest : Memory :=
    { m with
      instances := m.instances.filter fun i => !instances.contains i.id
      executions := m.executions.filter fun e => !executions.contains e.id
      steps := m.steps.filter fun s => !steps.contains s.id
      jobStatuses := m.jobStatuses.filter fun status => !instances.contains status.instanceId
      stepStatuses := m.stepStatuses.filter fun status => !steps.contains status.statusId
      checkpoints := m.checkpoints.filter fun row => !goes row.1 }
  (⟨m.instances.length - rest.instances.length, m.executions.length - rest.executions.length,
    m.steps.length - rest.steps.length, m.jobStatuses.length - rest.jobStatuses.length,
    m.stepStatuses.length - rest.stepStatuses.length,
    m.checkpoints.length - rest.checkpoints.length⟩, rest)

/-! ## Progress -/

/-- Adds the status record of an instance. -/
def createJobStatus (id : InstanceId) (m : Memory) : Except LedgerError (JobStatus × Memory) :=
  if (m.instance? id).isNone then .error ⟨.notFound, .jobInstance id⟩
  else if (m.jobStatus? id).isSome then .error ⟨.alreadyExists, .jobStatus id⟩
  else
    let status := JobStatus.fresh id
    .ok (status, { m with jobStatuses := m.jobStatuses ++ [status] })

/-- Replaces the status record of an instance. -/
def updateJobStatus (status : JobStatus) (m : Memory) : Except LedgerError (Unit × Memory) :=
  if (m.jobStatus? status.instanceId).isNone then
    .error ⟨.notFound, .jobStatus status.instanceId⟩
  else .ok ((), m.setJobStatus status)

/-- The status record of the instance of an execution. -/
def jobStatusOf (id : ExecutionId) (m : Memory) : Except LedgerError (Option JobStatus) := do
  let e ← m.execution id
  .ok (m.jobStatus? e.instanceId)

/-- Adds the status record kept under a step execution. -/
def createStepStatus (id : StepId) (m : Memory) : Except LedgerError (StepStatus × Memory) :=
  if (m.step? id).isNone then .error ⟨.noSuchExecution, .stepExecution id⟩
  else if (m.stepStatus? id).isSome then .error ⟨.alreadyExists, .stepStatus id⟩
  else
    let status := StepStatus.fresh id
    .ok (status, { m with stepStatuses := m.stepStatuses ++ [status] })

/-- The status record of a step of an instance: that of its first step execution that has one. -/
def findStepStatus (id : InstanceId) (step : String) (m : Memory) : Option StepStatus :=
  ((m.stepsOfInstance id).filter fun s => s.stepName = step).findSome? fun s =>
    m.stepStatus? s.id

/-- Replaces the status record of a step. -/
def updateStepStatus (status : StepStatus) (m : Memory) : Except LedgerError (Unit × Memory) :=
  if (m.stepStatus? status.statusId).isNone then
    .error ⟨.notFound, .stepStatus status.statusId⟩
  else .ok ((), m.setStepStatus status)

/-- Counts one more start of a step. -/
def incrementStartCount (id : StepId) (m : Memory) : Except LedgerError (UInt32 × Memory) :=
  match m.stepStatus? id with
  | none => .error ⟨.notFound, .stepStatus id⟩
  | some status =>
    if status.startCount.toNat + 1 < UInt32.size then
      let count := status.startCount + 1
      .ok (count, m.setStepStatus { status with startCount := count })
    else .error ⟨.invalid, .startCountOverflow id⟩

/-- Adds a pair without tokens. -/
def createPair (id : InstanceId) (step : String) (m : Memory) :
    Except LedgerError (Unit × Memory) :=
  let key := CheckpointKey.ofPair id step
  if (m.token? (key .reader)).isSome || (m.token? (key .writer)).isSome then
    .error ⟨.alreadyExists, .checkpointPair id step⟩
  else
    .ok ((), { m with
      checkpoints :=
        m.checkpoints ++ [((key .reader).encode, none), ((key .writer).encode, none)] })

/-- The tokens of a step. -/
def findPair (id : InstanceId) (step : String) (m : Memory) :
    Except LedgerError (Option CheckpointPair) :=
  let key := CheckpointKey.ofPair id step
  match m.token? (key .reader), m.token? (key .writer) with
  | none, none => .ok none
  | some reader, some writer => .ok (some ⟨reader, writer⟩)
  | _, _ => .error ⟨.decodeFailure, .halfPair id step⟩

/-- Replaces the tokens of a step. -/
def updatePair (id : InstanceId) (step : String) (pair : CheckpointPair) (m : Memory) :
    Except LedgerError (Unit × Memory) :=
  let key := CheckpointKey.ofPair id step
  if (m.token? (key .reader)).isNone || (m.token? (key .writer)).isNone then
    .error ⟨.notFound, .checkpointPair id step⟩
  else .ok ((), (m.setToken (key .reader) pair.reader).setToken (key .writer) pair.writer)

/-! ## All calls -/

/-- What a call on a ledger in memory comes to. One that fails leaves the ledger as it was. -/
def whole : (call : Call) → Action LedgerError Memory call.Answer
  | .createInstance name appTag definition => change (createInstance name appTag definition)
  | .createPartition name appTag => change (createInstance name.encode appTag none)
  | .findInstance id => look fun m => .ok (m.instance? id)
  | .tagOfInstance id => look (tagOfInstance id)
  | .countInstances name appTag => look fun m => .ok (m.named name appTag).length
  | .pageInstances name appTag start count =>
    look fun m => .ok (m.pageInstances name appTag start count)
  | .externalInstances => look fun m => .ok (Tables.externalInstances m)
  | .createExecution id parameters status time =>
    change (createExecution id parameters status time)
  | .markStarted id time => change (markStarted id time)
  | .setExecutionStatus id status time => change (setExecutionStatus id status time)
  | .finalizeExecution id status exitStatus time =>
    change (finalizeExecution id status exitStatus time)
  | .findExecution id => look fun m => .ok (m.execution? id)
  | .executionsOf id => look fun m => .ok (m.executionsOf id)
  | .runningExecutions jobName => look fun m => .ok (m.runningExecutions jobName)
  | .instanceOf id => look fun m => (m.execution id).map JobExecution.instanceId
  | .parametersOf id => look fun m => (m.execution id).map JobExecution.parameters
  | .tagOfExecution id => look (tagOfExecution id)
  | .latestExecution id => look fun m => .ok (Tables.latestExecution id m)
  | .createStep id step metrics time => do
    ensureStepName step
    change (createStep id step metrics time)
  | .updateStep id update => change (updateStep id update)
  | .findStep id => look fun m => .ok (m.step? id)
  | .stepsOf id => look fun m => .ok (m.stepsOf id)
  | .recentSteps id => look fun m => .ok (m.recentSteps id)
  | .partitionMetrics root step => look fun m => .ok (m.partitionMetrics root step)
  | .purge appTag => change fun m => .ok (m.purge appTag)
  | .readiness => answer ()
  | .createJobStatus id => change (createJobStatus id)
  | .findJobStatus id => look fun m => .ok (m.jobStatus? id)
  | .updateJobStatus status => change (updateJobStatus status)
  | .jobStatusOf id => look (jobStatusOf id)
  | .createStepStatus id => change (createStepStatus id)
  | .findStepStatus id step => look fun m => .ok (m.findStepStatus id step)
  | .updateStepStatus status => change (updateStepStatus status)
  | .incrementStartCount id => change (incrementStartCount id)
  | .createPair id step => do
    ensureStepName step
    change (createPair id step)
  | .findPair id step => look (findPair id step)
  | .updatePair id step pair => change (updatePair id step pair)

end Memory

end JobLedger
