import JobLedger.Distinct
import JobLedger.Durable.Database
import JobLedger.Name.Checkpoint
import JobLedger.Name.Pattern
import JobLedger.Text.Window

/-!
# History in a database

The statements behind the calls on instances, executions and step executions. A query gives its
answer, a change its answer and the database afterwards. A query of many rows checks the kinds of
the cells of all of them before it takes any row as a record.
-/

namespace JobLedger.Database

open Text

variable (db : Database)

/-- Adds an instance. -/
def createInstance (name appTag : String) (definition : Option String) (db : Database) :
    Except StoreError (InstanceId × Database) := do
  let operation := "create job instance"
  let instances ← need operation db.instances
  let row ← need operation instances.nextRow?
  let r : InstanceRow := ⟨.text name, .text appTag, .ofOption .text definition⟩
  let id ← idOfRow row
  .ok (id, { db with instances := some (instances.append row r) })

/-- The instance of a row. -/
def findInstance (row : Int) (db : Database) : Except StoreError (Option JobInstance) := do
  let operation := "get job instance"
  let instances ← need operation db.instances
  match instances.find? row with
  | none => .ok none
  | some r => (← r.values operation row).record.map some

/-- The tag of an instance. -/
def tagOfInstance (id : InstanceId) (row : Int) (db : Database) : Except StoreError String := do
  let operation := "app tag for instance"
  let instances ← need operation db.instances
  match instances.find? row with
  | none => .error ⟨.missing, .jobInstance id⟩
  | some r => r.appTag.readText operation

/-- The rows of instances of a name, and of a tag if one is given. -/
def named (instances : Table InstanceRow) (name : String) (appTag : Option String) : List Int :=
  (instances.rows.filter fun entry =>
    entry.2.name = .text name && appTag.all fun tag => entry.2.appTag = .text tag).map Prod.fst

/-- The number of instances of a name, and of a tag if one is given. -/
def countInstances (name : String) (appTag : Option String) (db : Database) :
    Except StoreError Nat := do
  let instances ← need "job instance count" db.instances
  .ok (named instances name appTag).length

/-- The instances of a name with the latest first, from position `start` on, at most `count`. -/
def pageInstances (name : String) (appTag : Option String) (start count : Nat) (db : Database) :
    Except StoreError (List InstanceId) := do
  let instances ← need "job instance ids" db.instances
  let rows := (named instances name appTag).reverse
  ((rows.drop (saturate start)).take (saturate count)).mapM idOfRow

/-- The character at the first position of a name cell is no colon. Of a cell without octets nothing
can be said. -/
def isExternal : Cell → Bool
  | .text name => window 1 1 name.toList ≠ [':']
  | .null => false
  | .blob source => !source.isEmpty
  | _ => true

/-- The rows of the instances that are no partitions, in the order of the index on their names. -/
def externalRows (instances : Table InstanceRow) : List (Int × InstanceRow) :=
  (instances.rows.filter fun entry => isExternal entry.2.name).mergeSort fun a b =>
    if a.2.name = b.2.name then a.1 ≤ b.1 else a.2.name.le b.2.name

/-- The instances that are no partitions, with their names, in the order of their rows. -/
def externalInstances (db : Database) : Except StoreError (List (InstanceId × String)) := do
  let operation := "external job instances"
  let instances ← need operation db.instances
  let named ← (externalRows instances).mapM fun entry =>
    (entry.2.name.readText operation).map fun name => (entry.1, name)
  let found ← named.mapM fun (row, name) => (idOfRow row).map fun id => (id, name)
  .ok (found.mergeSort fun a b => a.1.number ≤ b.1.number)

/-- Adds an execution of an instance. -/
def createExecution (id : InstanceId) (row : Int) (parameters : Octets) (status : BatchStatus)
    (time : Timestamp) (db : Database) : Except StoreError (ExecutionId × Database) := do
  let operation := "create job execution"
  let instances ← need operation db.instances
  if (instances.find? row).isNone then .error ⟨.missing, .jobInstance id⟩
  else do
    let executions ← need operation db.executions
    let next ← need operation executions.nextRow?
    let r : ExecutionRow :=
      ⟨.int row, .time time, .null, .null, .time time, .text status.label, .null,
        .blob parameters⟩
    let execution ← idOfRow next
    .ok (execution, { db with executions := some (executions.append next r) })

/-- Changes the row of an execution, for an operation. -/
def changeExecution (operation : String) (id : ExecutionId) (row : Int)
    (f : ExecutionRow → ExecutionRow) (db : Database) : Except StoreError (Unit × Database) := do
  let executions ← need operation db.executions
  if (executions.find? row).isNone then .error ⟨.missingExecution, .jobExecution id⟩
  else .ok ((), { db with executions := some (executions.modify row f) })

/-- The execution of a row. -/
def findExecution (row : Int) (db : Database) : Except StoreError (Option JobExecution) := do
  let operation := "get job execution"
  let executions ← need operation db.executions
  let instances ← need operation db.instances
  match executions.find? row with
  | none => .ok none
  | some r =>
    match owner? instances r with
    | none => .ok none
    | some i => (← r.values operation row i.name).record.map some

/-- The executions of an instance, the latest first. -/
def executionsOf (row : Int) (db : Database) : Except StoreError (List JobExecution) := do
  let operation := "job executions for instance"
  let executions ← need operation db.executions
  let instances ← need operation db.instances
  let rows := (executionsWithOwner instances executions).filter fun entry =>
    entry.2.1.instanceId = .int row
  let values ← rows.reverse.mapM fun (n, r, i) => r.values operation n i.name
  values.mapM ExecutionValues.record

/-- A status cell holds one of the labels that a query for executions on their way lists. -/
def isRunningCell (cell : Cell) : Bool :=
  ["STARTING", "STARTED", "STOPPING"].any fun label => cell = .text label

/-- The executions of jobs of a name that are on their way. -/
def runningExecutions (jobName : String) (db : Database) :
    Except StoreError (List ExecutionId) := do
  let operation := "running execution ids"
  let executions ← need operation db.executions
  let instances ← need operation db.instances
  let rows := (executionsWithOwner instances executions).filter fun entry =>
    entry.2.2.name = .text jobName && isRunningCell entry.2.1.status
  rows.mapM fun entry => idOfRow entry.1

/-- The instance of an execution. -/
def instanceOf (id : ExecutionId) (row : Int) (db : Database) :
    Except StoreError InstanceId := do
  let operation := "job instance for execution"
  let executions ← need operation db.executions
  match executions.find? row with
  | none => .error ⟨.missingExecution, .jobExecution id⟩
  | some r => idOfRow (← r.instanceId.readInt operation)

/-- The parameters of an execution. -/
def parametersOf (id : ExecutionId) (row : Int) (db : Database) :
    Except StoreError JobParameters := do
  let operation := "job parameters"
  let executions ← need operation db.executions
  match executions.find? row with
  | none => .error ⟨.missingExecution, .jobExecution id⟩
  | some r => storedParameters id (← r.parameters.readBlob operation)

/-- The tag of the instance of an execution. -/
def tagOfExecution (id : ExecutionId) (row : Int) (db : Database) :
    Except StoreError String := do
  let operation := "app tag for execution"
  let executions ← need operation db.executions
  let instances ← need operation db.instances
  match (executions.find? row).bind (owner? instances) with
  | none => .error ⟨.missingExecution, .jobExecution id⟩
  | some i => i.appTag.readText operation

/-- The later of two executions by time of creation; of two created at one time, the second. -/
def laterRow (best : Option (Int × Cell)) (entry : Int × Cell) : Option (Int × Cell) :=
  match best with
  | none => some entry
  | some b => if b.2.le entry.2 then some entry else some b

/-- The execution of an instance that was created last. -/
def latestExecution (row : Int) (db : Database) : Except StoreError (Option ExecutionId) := do
  let executions ← need "most recent execution" db.executions
  let rows := executions.rows.filter fun entry => entry.2.instanceId = .int row
  match (rows.map fun entry => (entry.1, entry.2.createTime)).foldl laterRow none with
  | none => .ok none
  | some best => (idOfRow best.1).map some

/-- Adds a step execution to an execution. -/
def createStep (id : ExecutionId) (row : Int) (step : String) (counters : Counters Cell)
    (userData : Octets) (time : Timestamp) (db : Database) :
    Except StoreError (StepId × Database) := do
  let operation := "create step execution"
  let executions ← need operation db.executions
  if (executions.find? row).isNone then .error ⟨.missingExecution, .jobExecution id⟩
  else do
    let steps ← need operation db.steps
    let next ← need operation steps.nextRow?
    let r : StepRow :=
      ⟨.int row, .text step, .text BatchStatus.starting.label, .null, counters, .time time, .null,
        .blob userData⟩
    let stepId ← idOfRow next
    .ok (stepId, { db with steps := some (steps.append next r) })

/-- The row of a step execution after a change. -/
def updatedStep (counters : Counters Cell) (userData : Octets) (update : StepUpdate)
    (r : StepRow) : StepRow :=
  { r with
    counters := counters
    userData := .blob userData
    endTime := (update.endTime.map Cell.time).getD r.endTime
    status := (update.status.map fun status => Cell.text status.label).getD r.status
    exitStatus := (update.exitStatus.map Cell.text).getD r.exitStatus }

/-- Changes a step execution, unless its execution has ended. -/
def updateStep (id : StepId) (row : Int) (counters : Counters Cell) (userData : Octets)
    (update : StepUpdate) (db : Database) : Except StoreError (Unit × Database) := do
  let operation := "update step execution"
  let steps ← need operation db.steps
  let executions ← need operation db.executions
  match (steps.find? row).bind (ownerOfStep? executions) with
  | none => .error ⟨.missing, .stepExecution id⟩
  | some (owner, e) => do
    let status ← storedStatus (← e.status.readText operation)
    if status.isTerminal then .error ⟨.rejected, .frozen id owner status⟩
    else
      .ok ((), { db with
        steps := some (steps.modify row (updatedStep counters userData update)) })

/-- The step execution of a row. -/
def findStep (row : Int) (db : Database) : Except StoreError (Option StepExecution) := do
  let operation := "get step execution"
  let steps ← need operation db.steps
  match steps.find? row with
  | none => .ok none
  | some r => (← r.values operation row).record.map some

/-- The step executions of an execution. -/
def stepsOf (row : Int) (db : Database) : Except StoreError (List StepExecution) := do
  let operation := "step executions"
  let steps ← need operation db.steps
  let rows := steps.rows.filter fun entry => entry.2.executionId = .int row
  let values ← rows.mapM fun entry => entry.2.values operation entry.1
  values.mapM StepValues.record

/-- The latest step execution of each step name of an instance, the latest first. -/
def recentSteps (row : Int) (db : Database) : Except StoreError (List StepExecution) := do
  let operation := "step executions"
  let steps ← need operation db.steps
  let executions ← need operation db.executions
  let rows := (stepsWithOwner executions steps).filter fun entry =>
    entry.2.2.instanceId = .int row
  let values ← rows.reverse.mapM fun (n, r, _) => r.values operation n
  (distinctBy StepValues.stepName values).mapM StepValues.record

/-- The characters by which a pattern is matched against a cell. -/
def patternText : Cell → Option (List Char)
  | .null => none
  | .real _ => none
  | .int i => some (integer i).toList
  | .text s => some s.toList
  | .blob source => some ((letters source).map fun letter => letter.getD '\ufffd')

/-- The step executions of which the execution and its instance are there, with the instance. -/
def stepsWithInstance (instances : Table InstanceRow) (executions : Table ExecutionRow)
    (steps : Table StepRow) : List (Int × StepRow × ExecutionRow × InstanceRow) :=
  (stepsWithOwner executions steps).filterMap fun entry =>
    (owner? instances entry.2.2).map fun i => (entry.1, entry.2.1, entry.2.2, i)

/-- The most octets of a pattern that a name can be matched against. -/
def patternLimit : Nat := 50000

/-- The counts of all step executions of the partitions of a step. -/
def partitionMetrics (root : InstanceId) (step : String) (db : Database) :
    Except StoreError (List StepMetrics) := do
  let operation := "partition step metrics"
  let pattern := PartitionName.pattern root step
  let steps ← need operation db.steps
  let executions ← need operation db.executions
  let instances ← need operation db.instances
  let rows := stepsWithInstance instances executions steps
  if patternLimit < pattern.utf8ByteSize && !rows.isEmpty then .error (.failed operation)
  let found := rows.filter fun entry =>
    (patternText entry.2.2.2.name).any (Like.matches? pattern.toList)
  let values ← found.mapM fun (_, r, _, i) => do
    let name ← i.name.readText operation
    let counters ← r.counters.traverse (Cell.readInt operation)
    .ok (name, counters)
  (values.filter fun entry => PartitionName.belongsTo entry.1 root step).mapM fun entry =>
    storedCounts entry.2

/-- A key cell begins with a text: as many of its characters as the text has are that text. -/
def beginsWith (head : String) : Cell → Bool
  | .text key => window 1 (visibleLength head.toList) key.toList = head.toList
  | _ => false

/-- Removes the checkpoints of instances, one instance after the other. -/
def purgeCheckpoints : List Int → Database → Except StoreError Database
  | [], db => .ok db
  | row :: rest, db => do
    let id ← idOfRow row
    let checkpoints ← need "purge checkpoints" db.checkpoints
    let kept := checkpoints.filter fun entry =>
      !beginsWith (CheckpointKey.instancePrefix id) entry.1
    purgeCheckpoints rest { db with checkpoints := some kept }

/-- How many rows of one table are gone in another. -/
def goneRows {ρ : Type} (before after : Table ρ) : Nat := before.rows.length - after.rows.length

/-- Removes the instances of a tag and all that belongs to them. -/
def purge (appTag : String) (db : Database) : Except StoreError (PurgeSummary × Database) := do
  let instances ← need "purge" db.instances
  let isTagged (i : InstanceRow) : Bool := i.appTag = .text appTag
  let tagged := (instances.rows.filter fun entry => isTagged entry.2).map Prod.fst
  let hasTag (cell : Cell) : Bool := tagged.any fun row => cell = .int row
  let stepStatuses ← need "purge step statuses" db.stepStatuses
  let steps ← need "purge step statuses" db.steps
  let executions ← need "purge step statuses" db.executions
  let goingSteps := ((stepsWithInstance instances executions steps).filter fun entry =>
    isTagged entry.2.2.2).map Prod.fst
  let goingExecutions := ((executionsWithOwner instances executions).filter fun entry =>
    isTagged entry.2.2).map Prod.fst
  let stepStatuses' := stepStatuses.remove fun row _ => goingSteps.contains row
  let steps' := steps.remove fun _ s => goingExecutions.any fun row => s.executionId = .int row
  let jobStatuses ← need "purge job statuses" db.jobStatuses
  let jobStatuses' := jobStatuses.remove fun row _ => tagged.contains row
  let db' ← purgeCheckpoints tagged db
  let executions' := executions.remove fun _ e => hasTag e.instanceId
  let instances' := instances.remove fun _ i => isTagged i
  let checkpoints (db : Database) : Nat := (db.checkpoints.map List.length).getD 0
  .ok (⟨goneRows instances instances', goneRows executions executions', goneRows steps steps',
      goneRows jobStatuses jobStatuses', goneRows stepStatuses stepStatuses',
      checkpoints db - checkpoints db'⟩,
    { db' with
      instances := some instances', executions := some executions', steps := some steps'
      jobStatuses := some jobStatuses', stepStatuses := some stepStatuses' })

end JobLedger.Database
