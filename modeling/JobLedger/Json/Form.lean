import JobLedger.Id
import JobLedger.Json.Value
import JobLedger.Record.History
import JobLedger.Record.Progress
import JobLedger.Name.Partition

/-!
# JSON forms of the records

Each record has a JSON form: an object with its fields in a fixed order, every field written also
when it is absent. A record is read from an object with its fields in any order, an absent optional
field counting as null, or from an array of all its fields in order. Integers have to fit their
field.
-/

namespace JobLedger

open Json Text

/-- Values of a type have a JSON form. -/
class JsonForm (α : Type) where
  /-- The form of a value. -/
  toJson : α → Value
  /-- The value of a given form. -/
  ofJson? : Value → Option α

export JsonForm (toJson ofJson?)

namespace Json

/-- A field that has to be present. -/
def required {α : Type} [JsonForm α] : Option Value → Option α
  | some value => ofJson? value
  | none => none

/-- The object with the given members, as the form of a record. -/
abbrev record (members : List (String × Value)) : Value := .object members

/-- An integer of a form that lies in a range of natural numbers. -/
def natBelow? (bound : Nat) : Value → Option Nat
  | .int i => if 0 ≤ i ∧ i < bound then some i.toNat else none
  | _ => none

end Json

instance : JsonForm String where
  toJson := .text
  ofJson?
    | .text s => some s
    | _ => none

instance : JsonForm UInt64 where
  toJson n := .int n.toNat
  ofJson? value := (natBelow? UInt64.size value).map UInt64.ofNat

instance : JsonForm UInt32 where
  toJson n := .int n.toNat
  ofJson? value := (natBelow? UInt32.size value).map UInt32.ofNat

instance : JsonForm UInt8 where
  toJson n := .int n.toNat
  ofJson? value := (natBelow? UInt8.size value).map UInt8.ofNat

/-- Counts of rows are written as they are and read if they fit in 64 bits. -/
instance : JsonForm Nat where
  toJson n := .int n
  ofJson? value := natBelow? UInt64.size value

instance {α : Type} [JsonForm α] : JsonForm (Option α) where
  toJson
    | some a => toJson a
    | none => .null
  ofJson?
    | .null => some none
    | value => (ofJson? value).map some

instance {α : Type} [JsonForm α] : JsonForm (List α) where
  toJson items := .array (items.map toJson)
  ofJson?
    | .array items => items.mapM ofJson?
    | _ => none

instance {entity : Entity} : JsonForm (Id entity) where
  toJson id := .int id.number
  ofJson? value := (natBelow? UInt64.size value).bind Id.ofNat?

instance : JsonForm Timestamp where
  toJson t := .int t.millis.toInt
  ofJson?
    | .int i => Timestamp.ofMillis? i
    | _ => none

namespace Json

/-- The label of an enumerated value: a string, or the only name of an object that binds it to
null. -/
def label? : Value → Option String
  | .text label => some label
  | .object [(label, .null)] => some label
  | _ => none

/-- An optional field: absent and null are the same. -/
def omissible {α : Type} [JsonForm α] : Option Value → Option (Option α)
  | some value => ofJson? value
  | none => some none

end Json

instance : JsonForm BatchStatus where
  toJson status := .text status.label
  ofJson? value := (label? value).bind BatchStatus.ofLabel?

instance : JsonForm CheckpointKind where
  toJson kind := .text kind.label
  ofJson? value := (label? value).bind CheckpointKind.ofLabel?

instance : JsonForm JobParameters where
  toJson p := .object (p.entries.map fun entry => (entry.1, .text entry.2))
  ofJson?
    | .object members =>
      (members.mapM fun member => (ofJson? member.2).map fun value => (member.1, value)).map
        JobParameters.ofList
    | _ => none

namespace JobInstance

/-- The names of the fields. -/
def fields : List String := ["id", "name", "app_tag", "job_definition"]

end JobInstance

instance : JsonForm JobInstance where
  toJson i := record
    [("id", toJson i.id), ("name", toJson i.name), ("app_tag", toJson i.appTag),
      ("job_definition", toJson i.definition)]
  ofJson? value := do
    match ← value.columns? JobInstance.fields with
    | [id, name, appTag, definition] =>
      some ⟨← required id, ← required name, ← required appTag, ← omissible definition⟩
    | _ => none

namespace JobExecution

/-- The names of the fields. -/
def fields : List String :=
  ["id", "job_instance_id", "job_name", "create_time", "start_time", "end_time",
    "last_update_time", "batch_status", "exit_status", "parameters"]

end JobExecution

instance : JsonForm JobExecution where
  toJson e := record
    [("id", toJson e.id), ("job_instance_id", toJson e.instanceId),
      ("job_name", toJson e.jobName), ("create_time", toJson e.createTime),
      ("start_time", toJson e.startTime), ("end_time", toJson e.endTime),
      ("last_update_time", toJson e.updateTime), ("batch_status", toJson e.status),
      ("exit_status", toJson e.exitStatus), ("parameters", toJson e.parameters)]
  ofJson? value := do
    match ← value.columns? JobExecution.fields with
    | [id, instanceId, jobName, createTime, startTime, endTime, updateTime, status, exitStatus,
        parameters] =>
      some ⟨← required id, ← required instanceId, ← required jobName, ← required createTime,
        ← omissible startTime, ← omissible endTime, ← required updateTime, ← required status,
        ← omissible exitStatus, ← required parameters⟩
    | _ => none

namespace StepMetrics

/-- The names under which the eight counts are shown. -/
def fields : List String :=
  ["read_count", "write_count", "commit_count", "rollback_count", "read_skip_count",
    "process_skip_count", "filter_count", "write_skip_count"]

end StepMetrics

instance : JsonForm StepMetrics where
  toJson m := record (StepMetrics.fields.zip (m.toList.map toJson))
  ofJson? value := do
    let columns ← value.columns? StepMetrics.fields
    Counters.ofList? (← columns.mapM required)

namespace StepExecution

/-- The names of the fields. -/
def fields : List String :=
  ["id", "job_execution_id", "step_name", "batch_status", "exit_status", "metrics",
    "start_time", "end_time", "persistent_user_data"]

end StepExecution

instance : JsonForm StepExecution where
  toJson s := record
    [("id", toJson s.id), ("job_execution_id", toJson s.executionId),
      ("step_name", toJson s.stepName), ("batch_status", toJson s.status),
      ("exit_status", toJson s.exitStatus), ("metrics", toJson s.metrics),
      ("start_time", toJson s.startTime), ("end_time", toJson s.endTime),
      ("persistent_user_data", toJson s.userData)]
  ofJson? value := do
    match ← value.columns? StepExecution.fields with
    | [id, executionId, stepName, status, exitStatus, metrics, startTime, endTime, userData] =>
      some ⟨← required id, ← required executionId, ← required stepName, ← required status,
        ← omissible exitStatus, ← required metrics, ← required startTime, ← omissible endTime,
        ← omissible userData⟩
    | _ => none

namespace JobStatus

/-- The names of the fields. -/
def fields : List String :=
  ["job_instance_id", "current_step", "batch_status", "exit_status", "latest_execution_id",
    "restart_on"]

end JobStatus

instance : JsonForm JobStatus where
  toJson s := record
    [("job_instance_id", toJson s.instanceId), ("current_step", toJson s.currentStep),
      ("batch_status", toJson s.status), ("exit_status", toJson s.exitStatus),
      ("latest_execution_id", toJson s.latestExecution), ("restart_on", toJson s.restartOn)]
  ofJson? value := do
    match ← value.columns? JobStatus.fields with
    | [instanceId, currentStep, status, exitStatus, latestExecution, restartOn] =>
      some ⟨← required instanceId, ← omissible currentStep, ← required status,
        ← omissible exitStatus, ← omissible latestExecution, ← omissible restartOn⟩
    | _ => none

namespace StepStatus

/-- The names of the fields. -/
def fields : List String :=
  ["status_id", "step_execution_id", "last_run_step_execution_id", "batch_status",
    "exit_status", "start_count", "persistent_user_data", "num_partitions"]

end StepStatus

instance : JsonForm StepStatus where
  toJson s := record
    [("status_id", toJson s.statusId), ("step_execution_id", toJson s.stepId),
      ("last_run_step_execution_id", toJson s.lastRunStep), ("batch_status", toJson s.status),
      ("exit_status", toJson s.exitStatus), ("start_count", toJson s.startCount),
      ("persistent_user_data", toJson s.userData), ("num_partitions", toJson s.partitions)]
  ofJson? value := do
    match ← value.columns? StepStatus.fields with
    | [statusId, stepId, lastRunStep, status, exitStatus, startCount, userData, partitions] =>
      some ⟨← required statusId, ← required stepId, ← omissible lastRunStep, ← required status,
        ← omissible exitStatus, ← required startCount, ← omissible userData,
        ← omissible partitions⟩
    | _ => none

namespace CheckpointPair

/-- The names of the fields. -/
def fields : List String := ["reader", "writer"]

end CheckpointPair

instance : JsonForm CheckpointPair where
  toJson p := record [("reader", toJson p.reader), ("writer", toJson p.writer)]
  ofJson? value := do
    match ← value.columns? CheckpointPair.fields with
    | [reader, writer] => some ⟨← omissible reader, ← omissible writer⟩
    | _ => none

namespace PartitionName

/-- The names of the fields. -/
def fields : List String := ["root", "step_name", "index"]

end PartitionName

instance : JsonForm PartitionName where
  toJson n := record
    [("root", toJson n.root), ("step_name", toJson n.stepName), ("index", toJson n.index)]
  ofJson? value := do
    match ← value.columns? PartitionName.fields with
    | [root, stepName, index] => some ⟨← required root, ← required stepName, ← required index⟩
    | _ => none

namespace PurgeSummary

/-- The names of the fields. -/
def fields : List String :=
  ["job_instances", "job_executions", "step_executions", "job_statuses", "step_statuses",
    "checkpoints"]

end PurgeSummary

instance : JsonForm PurgeSummary where
  toJson s := record
    [("job_instances", toJson s.instances), ("job_executions", toJson s.executions),
      ("step_executions", toJson s.steps), ("job_statuses", toJson s.jobStatuses),
      ("step_statuses", toJson s.stepStatuses), ("checkpoints", toJson s.checkpoints)]
  ofJson? value := do
    match ← value.columns? PurgeSummary.fields with
    | [instances, executions, steps, jobStatuses, stepStatuses, checkpoints] =>
      some ⟨← required instances, ← required executions, ← required steps,
        ← required jobStatuses, ← required stepStatuses, ← required checkpoints⟩
    | _ => none

end JobLedger
