import JobLedger.Durable.History

/-!
# Progress in a database

The statements behind the calls on status records and restart tokens. The blob of a status record
holds the identifier that it is kept under; a record found under another one is damaged.
-/

namespace JobLedger.Database

open Text

/-- A statement of the named operation finds a row. -/
def hasRow {ρ : Type} (operation : String) (t : Option (Table ρ)) (row : Int) :
    Except StoreError Bool := do
  let t ← need operation t
  .ok (t.find? row).isSome

/-- Adds the status record of an instance. -/
def createJobStatus (id : InstanceId) (row : Int) (blob : Octets) (db : Database) :
    Except StoreError (Unit × Database) := do
  if !(← hasRow "row lookup" db.instances row) then .error ⟨.missing, .jobInstance id⟩
  else if ← hasRow "row lookup" db.jobStatuses row then .error ⟨.conflict, .jobStatus id⟩
  else do
    let jobStatuses ← need "create job status" db.jobStatuses
    .ok ((), { db with jobStatuses := some (jobStatuses.put row (.blob blob)) })

/-- The job status in a blob that is kept under a row. -/
def storedJobStatus (row : Int) (blob : Octets) : Except StoreError JobStatus := do
  let status ← storedValue (Codec.json JobStatus) (.jobStatusRow row) blob
  let held ← rowOf status.instanceId
  if held ≠ row then .error ⟨.corrupt, .otherInstance row status.instanceId⟩ else .ok status

/-- The step status in a blob that is kept under a row. -/
def storedStepStatus (row : Int) (blob : Octets) : Except StoreError StepStatus := do
  let status ← storedValue (Codec.json StepStatus) (.stepStatusRow row) blob
  let held ← rowOf status.statusId
  if held ≠ row then .error ⟨.corrupt, .otherStep row status.statusId⟩ else .ok status

/-- The status record that is kept under the row of an instance. -/
def findJobStatus (row : Int) (db : Database) : Except StoreError (Option JobStatus) := do
  let operation := "get job status"
  let jobStatuses ← need operation db.jobStatuses
  match jobStatuses.find? row with
  | none => .ok none
  | some cell => (storedJobStatus row (← cell.readBlob operation)).map some

/-- Replaces the blob kept under a row, for an operation. -/
def replaceBlob (operation : String) (missing : Cause) (row : Int) (blob : Octets)
    (t : Option (Table Cell)) : Except StoreError (Table Cell) := do
  let t ← need operation t
  if (t.find? row).isNone then .error ⟨.missing, missing⟩
  else .ok (t.modify row fun _ => .blob blob)

/-- Replaces the status record of an instance. -/
def updateJobStatus (id : InstanceId) (row : Int) (blob : Octets) (db : Database) :
    Except StoreError (Unit × Database) := do
  let t ← replaceBlob "update job status" (.jobStatus id) row blob db.jobStatuses
  .ok ((), { db with jobStatuses := some t })

/-- The status record of the instance of an execution. -/
def jobStatusOf (id : ExecutionId) (row : Int) (db : Database) :
    Except StoreError (Option JobStatus) := do
  let operation := "job status for execution"
  let executions ← need operation db.executions
  match executions.find? row with
  | none => .error ⟨.missingExecution, .jobExecution id⟩
  | some r => db.findJobStatus (← r.instanceId.readInt operation)

/-- Adds the status record kept under a step execution. -/
def createStepStatus (id : StepId) (row : Int) (blob : Octets) (db : Database) :
    Except StoreError (Unit × Database) := do
  if !(← hasRow "row lookup" db.steps row) then
    .error ⟨.missingExecution, .stepExecution id⟩
  else if ← hasRow "row lookup" db.stepStatuses row then .error ⟨.conflict, .stepStatus id⟩
  else do
    let stepStatuses ← need "create step status" db.stepStatuses
    .ok ((), { db with stepStatuses := some (stepStatuses.put row (.blob blob)) })

/-- The status record of a step of an instance: the first one kept under a step execution of it. -/
def findStepStatus (row : Int) (step : String) (db : Database) :
    Except StoreError (Option StepStatus) := do
  let operation := "get step status"
  let stepStatuses ← need operation db.stepStatuses
  let steps ← need operation db.steps
  let executions ← need operation db.executions
  let own := ((stepsWithOwner executions steps).filter fun entry =>
    entry.2.2.instanceId = .int row && entry.2.1.stepName = .text step).map Prod.fst
  match stepStatuses.rows.find? fun entry => own.contains entry.1 with
  | none => .ok none
  | some (n, cell) => (storedStepStatus n (← cell.readBlob operation)).map some

/-- Replaces the status record of a step. -/
def updateStepStatus (id : StepId) (row : Int) (blob : Octets) (db : Database) :
    Except StoreError (Unit × Database) := do
  let t ← replaceBlob "update step status" (.stepStatus id) row blob db.stepStatuses
  .ok ((), { db with stepStatuses := some t })

/-- The blob of the status record of a step. -/
def stepStatusBlob (status : StepStatus) : Except StoreError Octets :=
  blobOf (Codec.json StepStatus) "step status" status

/-- Counts one more start of a step. -/
def incrementStartCount (id : StepId) (row : Int) (db : Database) :
    Except StoreError (UInt32 × Database) := do
  let operation := "increment step start count"
  let stepStatuses ← need operation db.stepStatuses
  match stepStatuses.find? row with
  | none => .error ⟨.missing, .stepStatus id⟩
  | some cell => do
    let status ← storedStepStatus row (← cell.readBlob operation)
    if status.startCount.toNat + 1 < UInt32.size then do
      let count := status.startCount + 1
      let blob ← stepStatusBlob { status with startCount := count }
      .ok (count, { db with stepStatuses := some (stepStatuses.modify row fun _ => .blob blob) })
    else .error ⟨.invalid, .startCountOverflow id⟩

/-- The cell of a checkpoint key. -/
def keyCell (key : CheckpointKey) : Cell := .text key.encode

/-- Adds a pair without tokens. -/
def createPair (id : InstanceId) (step : String) (blob : Octets) (db : Database) :
    Except StoreError (Unit × Database) := do
  let key := CheckpointKey.ofPair id step
  let checkpoints ← need "create checkpoint pair" db.checkpoints
  if (checkpoints.lookup (keyCell (key .reader))).isSome ||
      (checkpoints.lookup (keyCell (key .writer))).isSome then
    .error ⟨.conflict, .checkpointPair id step⟩
  else
    .ok ((), { db with
      checkpoints := some (checkpoints ++
        [(keyCell (key .reader), .blob blob), (keyCell (key .writer), .blob blob)]) })

/-- The blob of a token, if it has a row. -/
def tokenCell (operation : String) (cell : Option Cell) :
    Except StoreError (Option Octets) :=
  match cell with
  | none => .ok none
  | some cell => (cell.readBlob operation).map some

/-- The token in a blob that is kept under a key. -/
def tokenOf (key : CheckpointKey) (blob : Option Octets) :
    Except StoreError (Option (Option Octets)) :=
  match blob with
  | none => .ok none
  | some blob => (storedToken (.checkpointRow key.encode) blob).map some

/-- The tokens of a step. -/
def findPair (id : InstanceId) (step : String) (db : Database) :
    Except StoreError (Option CheckpointPair) := do
  let operation := "get checkpoint pair"
  let key := CheckpointKey.ofPair id step
  let checkpoints ← need operation db.checkpoints
  let readerBlob ← tokenCell operation (checkpoints.lookup (keyCell (key .reader)))
  let writerBlob ← tokenCell operation (checkpoints.lookup (keyCell (key .writer)))
  let reader ← tokenOf (key .reader) readerBlob
  let writer ← tokenOf (key .writer) writerBlob
  match reader, writer with
  | none, none => .ok none
  | some reader, some writer => .ok (some ⟨reader, writer⟩)
  | some _, none => .error ⟨.corrupt, .missingRow id step .writer⟩
  | none, some _ => .error ⟨.corrupt, .missingRow id step .reader⟩

/-- Replaces the blob of one token. -/
def setToken (key : CheckpointKey) (blob : Octets) (checkpoints : List (Cell × Cell)) :
    List (Cell × Cell) :=
  checkpoints.map fun entry =>
    if entry.1 = keyCell key then (entry.1, .blob blob) else entry

/-- Replaces the tokens of a step. -/
def updatePair (id : InstanceId) (step : String) (reader writer : Octets) (db : Database) :
    Except StoreError (Unit × Database) := do
  let key := CheckpointKey.ofPair id step
  let checkpoints ← need "update checkpoint pair" db.checkpoints
  if (checkpoints.lookup (keyCell (key .reader))).isNone ||
      (checkpoints.lookup (keyCell (key .writer))).isNone then
    .error ⟨.missing, .checkpointPair id step⟩
  else
    .ok ((), { db with
      checkpoints := some (setToken (key .writer) writer
        (setToken (key .reader) reader checkpoints)) })

end JobLedger.Database
