import JobLedger.Codec
import JobLedger.Durable.Cell
import JobLedger.Record.History

/-!
# Rows of the history

The rows of the tables of instances, executions and step executions. A row is read in two steps:
first the kinds of its cells are checked, then its values are taken as those of a record. A row that
fails the second step is damaged.
-/

namespace JobLedger

open Text

/-- The row number of an identifier. -/
def rowOf {entity : Entity} (id : Id entity) : Except StoreError Int :=
  if id.number < signedLimit then .ok id.number else .error ⟨.invalid, .idRange id.number⟩

/-- The identifier that a row number stands for. -/
def idOfRow {entity : Entity} (row : Int) : Except StoreError (Id entity) :=
  (Id.ofNat? row.toNat).elim (.error ⟨.corrupt, .rowId row⟩) .ok

/-- The status that a stored label stands for. -/
def storedStatus (label : String) : Except StoreError BatchStatus :=
  (BatchStatus.ofLabel? label).elim (.error ⟨.corrupt, .unknownStatus label⟩) .ok

/-- The cells of counts. -/
def counterCells (metrics : StepMetrics) : Except StoreError (Counters Cell) :=
  metrics.traverse fun count =>
    if count.toNat < signedLimit then .ok (.int count.toNat)
    else .error ⟨.invalid, .counterRange count.toNat⟩

/-- The counts that stored numbers stand for. -/
def storedCounts (numbers : Counters Int) : Except StoreError StepMetrics :=
  numbers.traverse fun n =>
    if 0 ≤ n then .ok (UInt64.ofNat n.toNat) else .error ⟨.corrupt, .negativeCounter n⟩

/-- The value of a blob that stands at a place. -/
def storedValue {α : Type} (codec : Codec α) (place : BlobPlace) (blob : Octets) :
    Except StoreError α :=
  match codec.decodeBlob blob with
  | .ok value => .ok value
  | .error fault => .error ⟨.corrupt, .blob place fault⟩

/-- The blob of a value, for a record of the named sort. -/
def blobOf {α : Type} (codec : Codec α) (sort : String) (value : α) :
    Except StoreError Octets :=
  match codec.encodeBlob value with
  | .ok blob => .ok blob
  | .error fault => .error ⟨.invalid, .blob (.named sort) fault⟩

/-- The optional octets of a frame that stands at a place. -/
def storedToken (place : BlobPlace) (blob : Octets) : Except StoreError (Option Octets) :=
  match Frame.decode blob with
  | .ok token => .ok token
  | .error fault => .error ⟨.corrupt, .blob place fault⟩

/-- The frame of optional octets. -/
def tokenBlob (token : Option Octets) : Except StoreError Octets :=
  match Frame.encode token with
  | .ok blob => .ok blob
  | .error fault => .error ⟨.invalid, .unwritten fault⟩

/-- A row of the table of instances. -/
structure InstanceRow where
  name : Cell
  appTag : Cell
  definition : Cell
  deriving DecidableEq

/-- A row of the table of executions. -/
structure ExecutionRow where
  instanceId : Cell
  createTime : Cell
  startTime : Cell
  endTime : Cell
  updateTime : Cell
  status : Cell
  exitStatus : Cell
  parameters : Cell
  deriving DecidableEq

/-- A row of the table of step executions. -/
structure StepRow where
  executionId : Cell
  stepName : Cell
  status : Cell
  exitStatus : Cell
  counters : Counters Cell
  startTime : Cell
  endTime : Cell
  userData : Cell
  deriving DecidableEq

/-- The values of a row of the table of instances. -/
structure InstanceValues where
  row : Int
  name : String
  appTag : String
  definition : Option String

/-- The values of a row of the table of executions, with the name of its instance. -/
structure ExecutionValues where
  row : Int
  instanceId : Int
  jobName : String
  createTime : Timestamp
  startTime : Option Timestamp
  endTime : Option Timestamp
  updateTime : Timestamp
  status : String
  exitStatus : Option String
  parameters : Octets

/-- The values of a row of the table of step executions. -/
structure StepValues where
  row : Int
  executionId : Int
  stepName : String
  status : String
  exitStatus : Option String
  counters : Counters Int
  startTime : Timestamp
  endTime : Option Timestamp
  userData : Octets

/-- The values in the cells of a row. -/
def InstanceRow.values (operation : String) (row : Int) (r : InstanceRow) :
    Except StoreError InstanceValues := do
  let name ← r.name.readText operation
  let appTag ← r.appTag.readText operation
  let definition ← r.definition.readOption (Cell.readText operation)
  .ok ⟨row, name, appTag, definition⟩

/-- The instance of a row. -/
def InstanceValues.record (v : InstanceValues) : Except StoreError JobInstance := do
  let id ← idOfRow v.row
  .ok ⟨id, v.name, v.appTag, v.definition⟩

/-- The values in the cells of a row and in the cell that holds the name of its instance. -/
def ExecutionRow.values (operation : String) (row : Int) (r : ExecutionRow) (jobName : Cell) :
    Except StoreError ExecutionValues := do
  let instanceId ← r.instanceId.readInt operation
  let jobName ← jobName.readText operation
  let createTime ← r.createTime.readTime operation
  let startTime ← r.startTime.readOption (Cell.readTime operation)
  let endTime ← r.endTime.readOption (Cell.readTime operation)
  let updateTime ← r.updateTime.readTime operation
  let status ← r.status.readText operation
  let exitStatus ← r.exitStatus.readOption (Cell.readText operation)
  let parameters ← r.parameters.readBlob operation
  .ok ⟨row, instanceId, jobName, createTime, startTime, endTime, updateTime, status, exitStatus,
    parameters⟩

/-- The parameters in a blob of an execution. -/
def storedParameters (id : ExecutionId) (blob : Octets) : Except StoreError JobParameters :=
  storedValue (Codec.json JobParameters) (.parametersOf id) blob

/-- The execution of a row. -/
def ExecutionValues.record (v : ExecutionValues) : Except StoreError JobExecution := do
  let id ← idOfRow v.row
  let parameters ← storedParameters id v.parameters
  let instanceId ← idOfRow v.instanceId
  let status ← storedStatus v.status
  .ok ⟨id, instanceId, v.jobName, v.createTime, v.startTime, v.endTime, v.updateTime, status,
    v.exitStatus, parameters⟩

/-- The values in the cells of a row. -/
def StepRow.values (operation : String) (row : Int) (r : StepRow) :
    Except StoreError StepValues := do
  let executionId ← r.executionId.readInt operation
  let stepName ← r.stepName.readText operation
  let status ← r.status.readText operation
  let exitStatus ← r.exitStatus.readOption (Cell.readText operation)
  let counters ← r.counters.traverse (Cell.readInt operation)
  let startTime ← r.startTime.readTime operation
  let endTime ← r.endTime.readOption (Cell.readTime operation)
  let userData ← r.userData.readBlob operation
  .ok ⟨row, executionId, stepName, status, exitStatus, counters, startTime, endTime, userData⟩

/-- The step execution of a row. -/
def StepValues.record (v : StepValues) : Except StoreError StepExecution := do
  let id ← idOfRow v.row
  let userData ← storedToken (.userDataOf id) v.userData
  let executionId ← idOfRow v.executionId
  let status ← storedStatus v.status
  let metrics ← storedCounts v.counters
  .ok ⟨id, executionId, v.stepName, status, v.exitStatus, metrics, v.startTime, v.endTime,
    userData⟩

end JobLedger
