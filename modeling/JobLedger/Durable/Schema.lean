import JobLedger.Durable.Database

/-!
# The schema of a database

A store that is opened makes sure that its database has all tables and indexes, and that the schema
is of the version it knows. What is missing is created, in an order in which each object comes after
those it depends on; what is there is left alone.
-/

namespace JobLedger

/-- The version of the schema. -/
def schemaVersion : Int := 1

/-- A table or an index of the schema. -/
inductive SchemaObject where
  | instances
  | executions
  | steps
  | jobStatuses
  | stepStatuses
  | checkpoints
  | instanceName
  | instanceTag
  | executionOwner
  | stepOwner
  deriving DecidableEq, Repr

namespace SchemaObject

/-- All objects, in the order in which they are created. -/
def all : List SchemaObject :=
  [instances, executions, steps, jobStatuses, stepStatuses, checkpoints, instanceName,
    instanceTag, executionOwner, stepOwner]

/-- The name of an object. -/
def name : SchemaObject → String
  | instances => "jobinstancedata"
  | executions => "executioninstancedata"
  | steps => "stepexecutioninstancedata"
  | jobStatuses => "jobstatus"
  | stepStatuses => "stepstatus"
  | checkpoints => "checkpointdata"
  | instanceName => "idx_jobinstancedata_name"
  | instanceTag => "idx_jobinstancedata_apptag"
  | executionOwner => "idx_executioninstancedata_jobinstanceid"
  | stepOwner => "idx_stepexecutioninstancedata_jobexecid"

/-- The word for the kind of an object. -/
def kind : SchemaObject → String
  | instances | executions | steps | jobStatuses | stepStatuses | checkpoints => "table"
  | instanceName | instanceTag | executionOwner | stepOwner => "index"

/-- A database has an object. -/
def isIn (db : Database) : SchemaObject → Bool
  | instances => db.instances.isSome
  | executions => db.executions.isSome
  | steps => db.steps.isSome
  | jobStatuses => db.jobStatuses.isSome
  | stepStatuses => db.stepStatuses.isSome
  | checkpoints => db.checkpoints.isSome
  | instanceName => db.indexes.instanceName
  | instanceTag => db.indexes.instanceTag
  | executionOwner => db.indexes.executionOwner
  | stepOwner => db.indexes.stepOwner

/-- The database with an object created, empty. -/
def addTo (db : Database) : SchemaObject → Database
  | instances => { db with instances := some .empty }
  | executions => { db with executions := some .empty }
  | steps => { db with steps := some .empty }
  | jobStatuses => { db with jobStatuses := some .empty }
  | stepStatuses => { db with stepStatuses := some .empty }
  | checkpoints => { db with checkpoints := some [] }
  | instanceName => { db with indexes := { db.indexes with instanceName := true } }
  | instanceTag => { db with indexes := { db.indexes with instanceTag := true } }
  | executionOwner => { db with indexes := { db.indexes with executionOwner := true } }
  | stepOwner => { db with indexes := { db.indexes with stepOwner := true } }

theorem mem_all (o : SchemaObject) : o ∈ all := by cases o <;> decide

theorem isIn_addTo (db : Database) (o : SchemaObject) : o.isIn (o.addTo db) = true := by
  cases o <;> rfl

end SchemaObject

/-- What keeps a statement from writing. -/
inductive Obstacle where
  /-- Someone else has the lock. -/
  | lock
  /-- The right to write is missing. -/
  | right
  deriving DecidableEq, Repr

/-- The error of a statement that an obstacle keeps from writing. -/
def Obstacle.error : Obstacle → String → StoreError
  | lock => .locked
  | right => .failed

namespace Database

/-- The database after a statement that writes. -/
def statement (obstacle : Option Obstacle) (operation : String) (db : Database) :
    Except StoreError Database :=
  match obstacle with
  | some o => .error (o.error operation)
  | none => .ok db

/-- Creates the objects of a list that are missing, and tells which ones. -/
def createMissing (obstacle : Option Obstacle) :
    List SchemaObject → Database → Except StoreError (List SchemaObject × Database)
  | [], db => .ok ([], db)
  | o :: rest, db =>
    if o.isIn db then createMissing obstacle rest db
    else do
      let db ← statement obstacle o.name (o.addTo db)
      let (created, db) ← createMissing obstacle rest db
      .ok (o :: created, db)

/-- Makes sure that the table of schema versions is there. -/
def ensureVersions (obstacle : Option Obstacle) (db : Database) : Except StoreError Database :=
  match db.versions with
  | some _ => .ok db
  | none => statement obstacle "schema meta" { db with versions := some [] }

/-- Checks the version of the schema, and records it where there is none. -/
def ensureVersion (obstacle : Option Obstacle) (db : Database) : Except StoreError Database :=
  let operation := "schema version"
  match db.versions with
  | some (cell :: _) => do
    let version ← cell.readInt operation
    if version = schemaVersion then .ok db
    else .error ⟨.versionMismatch, .schemaVersion version⟩
  | _ => statement obstacle operation { db with versions := some [.int schemaVersion] }

/-- Makes sure that the schema is complete and of the right version, as a whole or not at all, and
tells which objects were created. -/
def prepare (obstacle : Option Obstacle) (db : Database) :
    Except StoreError (List SchemaObject × Database) := do
  let db ← ensureVersions obstacle db
  let db ← ensureVersion obstacle db
  createMissing obstacle SchemaObject.all db

end Database

end JobLedger
