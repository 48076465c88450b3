import JobLedger.Action
import JobLedger.Call
import JobLedger.Durable.Progress

/-!
# The store in a database

Every call on a store has its answer in a database, wherever that is kept. A call that reads looks
at the database once. A call that writes does so under the lock of the database and as a whole: it
fails, and the database is as it was, or it succeeds, and what it did is reported.
-/

namespace JobLedger

open JobLedger.Action Text

/-- A type of states that keep a database, which may be locked. -/
class KeepsDatabase (σ : Type) where
  /-- The database as the next reader finds it, for an operation. -/
  readable : σ → String → Except StoreError Database
  /-- The next reader answers at all, for an operation. -/
  isReady : σ → String → Except StoreError Unit
  /-- The database as a writer finds it once it has the lock, for an operation. -/
  writable : σ → String → Except StoreError Database
  /-- The state with another database in place. -/
  keep : σ → Database → σ
  /-- The state when a reader has had its turn. -/
  turn : σ → σ

namespace Database

variable {σ : Type} [KeepsDatabase σ] {α : Type}

/-- Takes the turn of a reader. -/
def takeTurn (look : σ → Except StoreError α) : Action StoreError σ α := fun s =>
  ⟨look s, KeepsDatabase.turn s, []⟩

/-- Answers a query of an operation. -/
def read (operation : String) (query : Database → Except StoreError α) :
    Action StoreError σ α :=
  takeTurn fun s => do
    let db ← KeepsDatabase.readable s operation
    query db

/-- Makes sure that a reader and the writer answer. The writer always does. -/
def checkReadiness : Action StoreError σ Unit :=
  takeTurn fun s => KeepsDatabase.isReady s "readiness read"

/-- The statement of an operation that writes first. Purging has a name for each of its own. -/
def firstStatement (operation : String) : String :=
  if operation = "purge" then "purge step statuses" else operation

/-- Makes a change for an operation, as a whole or not at all. -/
def write (operation : String) (update : Database → Except StoreError (α × Database)) :
    Action StoreError σ α :=
  change fun s => do
    let db ← KeepsDatabase.writable s operation
    let (a, db') ← update db
    .ok (a, KeepsDatabase.keep s db')

/-- Adds an instance and reports it. -/
def addInstance (name appTag : String) (definition : Option String) :
    Action StoreError σ JobInstance := do
  let id ← write "create job instance" (createInstance name appTag definition)
  report (.jobInstanceCreated id name appTag)
  answer ⟨id, name, appTag, definition⟩

/-- Changes an execution and reports it. -/
def alterExecution (operation : String) (id : ExecutionId) (f : ExecutionRow → ExecutionRow) :
    Action StoreError σ Unit := do
  let row ← ofExcept (rowOf id)
  write operation (changeExecution operation id row f)
  report (.jobExecutionUpdated id operation)

/-- Adds an execution and reports it. -/
def addExecution (id : InstanceId) (parameters : JobParameters) (status : BatchStatus)
    (time : Timestamp) : Action StoreError σ ExecutionId := do
  let row ← ofExcept (rowOf id)
  let blob ← ofExcept (blobOf (Codec.json JobParameters) "job parameters" parameters)
  let execution ← write "create job execution" (createExecution id row blob status time)
  report (.jobExecutionCreated id execution status)
  answer execution

/-- Adds a step execution and reports it. -/
def addStep (id : ExecutionId) (step : String) (metrics : StepMetrics) (time : Timestamp) :
    Action StoreError σ StepId := do
  let row ← ofExcept (rowOf id)
  let counters ← ofExcept (counterCells metrics)
  let blob ← ofExcept (tokenBlob none)
  let stepId ← write "create step execution" (createStep id row step counters blob time)
  report (.stepExecutionCreated id stepId step)
  answer stepId

/-- Changes a step execution and reports it. -/
def alterStep (id : StepId) (update : StepUpdate) : Action StoreError σ Unit := do
  let row ← ofExcept (rowOf id)
  let counters ← ofExcept (counterCells update.metrics)
  let blob ← ofExcept (tokenBlob update.userData)
  write "update step execution" (updateStep id row counters blob update)
  report (.stepExecutionUpdated id update.metrics.read update.metrics.write)

/-- The counts of the partitions of a step, reported. -/
def loadPartitions (root : InstanceId) (step : String) :
    Action StoreError σ (List StepMetrics) := do
  let rows ← read "partition step metrics" (partitionMetrics root step)
  report (.partitionRowsLoaded root step rows.length)
  answer rows

/-- Removes the instances of a tag and reports it. -/
def removeTag (appTag : String) : Action StoreError σ PurgeSummary := do
  let summary ← write "purge" (purge appTag)
  report (.ledgerPurged appTag summary)
  answer summary

/-- Adds the status record of an instance and reports it. -/
def addJobStatus (id : InstanceId) : Action StoreError σ JobStatus := do
  let row ← ofExcept (rowOf id)
  let status := JobStatus.fresh id
  let blob ← ofExcept (blobOf (Codec.json JobStatus) "job status" status)
  write "create job status" (createJobStatus id row blob)
  report (.jobStatusStored id)
  answer status

/-- Adds the status record of a step and reports it. -/
def addStepStatus (id : StepId) : Action StoreError σ StepStatus := do
  let row ← ofExcept (rowOf id)
  let status := StepStatus.fresh id
  let blob ← ofExcept (stepStatusBlob status)
  write "create step status" (createStepStatus id row blob)
  report (.stepStatusStored id)
  answer status

/-- Adds a pair without tokens and reports it. -/
def addPair (id : InstanceId) (step : String) : Action StoreError σ Unit := do
  let blob ← ofExcept (tokenBlob none)
  write "create checkpoint pair" (createPair id step blob)
  report (.checkpointPairStored id step)

/-- A query about the row of an identifier. -/
def readRow {entity : Entity} (operation : String) (id : Id entity)
    (query : Int → Database → Except StoreError α) : Action StoreError σ α := do
  let row ← ofExcept (rowOf id)
  read operation (query row)

/-- Answers a call whose step name has been checked. -/
def performStored : (call : Call) → Action StoreError σ call.Answer
  | .createInstance name appTag definition => addInstance name appTag definition
  | .createPartition name appTag => addInstance name.encode appTag none
  | .findInstance id => readRow "get job instance" id findInstance
  | .tagOfInstance id => readRow "app tag for instance" id (tagOfInstance id)
  | .countInstances name appTag => read "job instance count" (countInstances name appTag)
  | .pageInstances name appTag start count =>
    read "job instance ids" (pageInstances name appTag start count)
  | .externalInstances => read "external job instances" externalInstances
  | .createExecution id parameters status time => addExecution id parameters status time
  | .markStarted id time =>
    alterExecution "mark job started" id fun e =>
      { e with
        status := .text BatchStatus.started.label, startTime := .time time, updateTime := .time time }
  | .setExecutionStatus id status time =>
    alterExecution "update batch status" id fun e =>
      { e with status := .text status.label, updateTime := .time time }
  | .finalizeExecution id status exitStatus time =>
    alterExecution "finalize job execution" id fun e =>
      { e with
        status := .text status.label, exitStatus := .text exitStatus, endTime := .time time
        updateTime := .time time }
  | .findExecution id => readRow "get job execution" id findExecution
  | .executionsOf id => readRow "job executions for instance" id executionsOf
  | .runningExecutions jobName => read "running execution ids" (runningExecutions jobName)
  | .instanceOf id => readRow "job instance for execution" id (instanceOf id)
  | .parametersOf id => readRow "job parameters" id (parametersOf id)
  | .tagOfExecution id => readRow "app tag for execution" id (tagOfExecution id)
  | .latestExecution id => readRow "most recent execution" id latestExecution
  | .createStep id step metrics time => addStep id step metrics time
  | .updateStep id update => alterStep id update
  | .findStep id => readRow "get step execution" id findStep
  | .stepsOf id => readRow "step executions" id stepsOf
  | .recentSteps id => readRow "step executions" id recentSteps
  | .partitionMetrics root step => loadPartitions root step
  | .purge appTag => removeTag appTag
  | .readiness => checkReadiness
  | .createJobStatus id => addJobStatus id
  | .findJobStatus id => readRow "get job status" id findJobStatus
  | .updateJobStatus status => do
    let row ← ofExcept (rowOf status.instanceId)
    let blob ← ofExcept (blobOf (Codec.json JobStatus) "job status" status)
    write "update job status" (updateJobStatus status.instanceId row blob)
  | .jobStatusOf id => readRow "job status for execution" id (jobStatusOf id)
  | .createStepStatus id => addStepStatus id
  | .findStepStatus id step => readRow "get step status" id fun row => findStepStatus row step
  | .updateStepStatus status => do
    let row ← ofExcept (rowOf status.statusId)
    let blob ← ofExcept (stepStatusBlob status)
    write "update step status" (updateStepStatus status.statusId row blob)
  | .incrementStartCount id => do
    let row ← ofExcept (rowOf id)
    write "increment step start count" (incrementStartCount id row)
  | .createPair id step => addPair id step
  | .findPair id step => read "get checkpoint pair" (findPair id step)
  | .updatePair id step pair => do
    let reader ← ofExcept (tokenBlob pair.reader)
    let writer ← ofExcept (tokenBlob pair.writer)
    write "update checkpoint pair" (updatePair id step reader writer)

/-- Refuses a call with a step name that is none, where the call is to write it. -/
def ensureCall : Call → Action LedgerError σ Unit
  | .createStep _ step _ _ => ensureStepName step
  | .createPair _ step => ensureStepName step
  | _ => answer ()

/-- Answers a call. -/
def perform (call : Call) : Action LedgerError σ call.Answer := do
  ensureCall call
  mapError StoreError.toLedger (performStored call)

instance : LedgerStore σ := ⟨perform⟩

end Database

end JobLedger
