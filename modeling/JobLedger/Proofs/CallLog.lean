import JobLedger.Call

/-!
# Logs of calls

A log lists the calls that succeeded, each with its answer. It tells what was created and under which
number, what was done to an execution since, and which tags were purged.
-/

namespace JobLedger

/-- A call that succeeded, with its answer. -/
structure Success where
  call : Call
  answer : call.Answer

/-- The calls that succeeded, in the order in which they were made. -/
abbrev CallLog := List Success

/-- What is settled about an execution when it is created. -/
structure ExecutionStart where
  id : ExecutionId
  instanceId : InstanceId
  createTime : Timestamp
  parameters : JobParameters

/-- What was settled about an execution when it was created. -/
def JobExecution.start (e : JobExecution) : ExecutionStart :=
  ⟨e.id, e.instanceId, e.createTime, e.parameters⟩

/-- What is settled about a step execution when it is created. -/
structure StepStart where
  id : StepId
  executionId : ExecutionId
  stepName : String
  startTime : Timestamp

/-- What was settled about a step execution when it was created. -/
def StepExecution.start (s : StepExecution) : StepStart :=
  ⟨s.id, s.executionId, s.stepName, s.startTime⟩

/-- What is done to an execution at a time. -/
inductive ExecutionChange where
  | created (status : BatchStatus) (time : Timestamp)
  | started (time : Timestamp)
  | moved (status : BatchStatus) (time : Timestamp)
  | ended (status : BatchStatus) (exitStatus : String) (time : Timestamp)

namespace ExecutionChange

/-- The execution after a change. One that is created is what it is. -/
def apply (change : ExecutionChange) (e : JobExecution) : JobExecution :=
  match change with
  | created .. => e
  | started time => { e with status := .started, startTime := some time, updateTime := time }
  | moved status time => { e with status := status, updateTime := time }
  | ended status exitStatus time =>
    { e with
      status := status, exitStatus := some exitStatus, endTime := some time, updateTime := time }

/-- The status that an execution is given, and the time. -/
def status : ExecutionChange → BatchStatus × Timestamp
  | created status time => (status, time)
  | started time => (.started, time)
  | moved status time => (status, time)
  | ended status _ time => (status, time)

/-- The time of a start. -/
def startTime? : ExecutionChange → Option Timestamp
  | started time => some time
  | _ => none

/-- The time of an end, and the exit status. -/
def ending? : ExecutionChange → Option (Timestamp × String)
  | ended _ exitStatus time => some (time, exitStatus)
  | _ => none

end ExecutionChange

/-- The times and the statuses of an execution are those of what was last done to it. -/
structure JobExecution.FollowsFrom (e : JobExecution) (changes : List ExecutionChange) : Prop where
  startTime : e.startTime = (changes.filterMap ExecutionChange.startTime?).getLast?
  endTime : e.endTime = (changes.filterMap ExecutionChange.ending?).getLast?.map Prod.fst
  exitStatus : e.exitStatus = (changes.filterMap ExecutionChange.ending?).getLast?.map Prod.snd
  status : (changes.map ExecutionChange.status).getLast? = some (e.status, e.updateTime)

/-- A change that is no creation is carried out on the execution. -/
theorem JobExecution.FollowsFrom.append {e : JobExecution} {changes : List ExecutionChange}
    (h : e.FollowsFrom changes) {change : ExecutionChange}
    (hlater : ∀ status time, change ≠ .created status time) :
    (change.apply e).FollowsFrom (changes ++ [change]) := by
  obtain ⟨hstart, hend, hexit, -⟩ := h
  cases change with
  | created status time => exact absurd rfl (hlater status time)
  | started time | moved status time | ended status exitStatus time =>
    constructor <;>
      simp [ExecutionChange.apply, ExecutionChange.startTime?, ExecutionChange.ending?,
        ExecutionChange.status, hstart, hend, hexit]

/-- A change that is no creation leaves what was settled when the execution was created. -/
theorem ExecutionChange.start_apply (change : ExecutionChange) (e : JobExecution) :
    (change.apply e).start = e.start := by
  cases change <;> rfl

namespace Success

/-- The instance that was created. -/
def instance? : Success → Option JobInstance
  | ⟨.createInstance .., i⟩ => some i
  | ⟨.createPartition .., i⟩ => some i
  | _ => none

/-- The execution that was created. -/
def execution? : Success → Option ExecutionStart
  | ⟨.createExecution instanceId parameters _ time, id⟩ => some ⟨id, instanceId, time, parameters⟩
  | _ => none

/-- The step execution that was created. -/
def step? : Success → Option StepStart
  | ⟨.createStep executionId step _ time, id⟩ => some ⟨id, executionId, step, time⟩
  | _ => none

/-- The execution that something was done to. -/
def change? : Success → Option (ExecutionId × ExecutionChange)
  | ⟨.createExecution _ _ status time, id⟩ => some (id, .created status time)
  | ⟨.markStarted id time, _⟩ => some (id, .started time)
  | ⟨.setExecutionStatus id status time, _⟩ => some (id, .moved status time)
  | ⟨.finalizeExecution id status exitStatus time, _⟩ => some (id, .ended status exitStatus time)
  | _ => none

/-- The tag that was purged. -/
def purged? : Success → Option String
  | ⟨.purge tag, _⟩ => some tag
  | _ => none

end Success

namespace CallLog

variable (log : CallLog)

/-- The instances that were created. -/
def instances : List JobInstance := log.filterMap Success.instance?

/-- The executions that were created. -/
def executions : List ExecutionStart := log.filterMap Success.execution?

/-- The step executions that were created. -/
def steps : List StepStart := log.filterMap Success.step?

/-- What was done to an execution. -/
def changesOf (id : ExecutionId) : List ExecutionChange :=
  (log.filterMap Success.change?).filterMap fun change =>
    if change.1 = id then some change.2 else none

/-- The tag of an instance was purged after the instance had been created. -/
def PurgedSince (i : JobInstance) : Prop :=
  ∃ before after : CallLog, log = before ++ after ∧ i ∈ before.instances ∧
    i.appTag ∈ after.filterMap Success.purged?

variable {log} {success : Success}

/-- A call that creates no instance adds none to the log. -/
theorem instances_of_none (h : success.instance? = none) :
    instances (log ++ [success]) = log.instances := by
  rw [instances, List.filterMap_append, List.filterMap_cons_none h, List.filterMap_nil,
    List.append_nil, instances]

/-- A call that creates an instance adds it to the log. -/
theorem instances_of_some {i : JobInstance} (h : success.instance? = some i) :
    instances (log ++ [success]) = log.instances ++ [i] := by
  rw [instances, List.filterMap_append, List.filterMap_cons_some h, List.filterMap_nil, instances]

/-- A call that creates no execution adds none to the log. -/
theorem executions_of_none (h : success.execution? = none) :
    executions (log ++ [success]) = log.executions := by
  rw [executions, List.filterMap_append, List.filterMap_cons_none h, List.filterMap_nil,
    List.append_nil, executions]

/-- A call that creates an execution adds its start to the log. -/
theorem executions_of_some {start : ExecutionStart} (h : success.execution? = some start) :
    executions (log ++ [success]) = log.executions ++ [start] := by
  rw [executions, List.filterMap_append, List.filterMap_cons_some h, List.filterMap_nil,
    executions]

/-- A call that creates no step execution adds none to the log. -/
theorem steps_of_none (h : success.step? = none) : steps (log ++ [success]) = log.steps := by
  rw [steps, List.filterMap_append, List.filterMap_cons_none h, List.filterMap_nil,
    List.append_nil, steps]

/-- A call that creates a step execution adds its start to the log. -/
theorem steps_of_some {start : StepStart} (h : success.step? = some start) :
    steps (log ++ [success]) = log.steps ++ [start] := by
  rw [steps, List.filterMap_append, List.filterMap_cons_some h, List.filterMap_nil, steps]

/-- A call that changes no execution adds no change to the log. -/
theorem changesOf_of_none (h : success.change? = none) (id : ExecutionId) :
    changesOf (log ++ [success]) id = log.changesOf id := by
  rw [changesOf, List.filterMap_append, List.filterMap_cons_none h, List.filterMap_nil,
    List.append_nil, changesOf]

/-- A call that changes an execution adds a change to that execution, and to no other. -/
theorem changesOf_of_some {changed : ExecutionId} {change : ExecutionChange}
    (h : success.change? = some (changed, change)) (id : ExecutionId) :
    changesOf (log ++ [success]) id =
      log.changesOf id ++ if changed = id then [change] else [] := by
  rw [changesOf, List.filterMap_append, List.filterMap_cons_some h, List.filterMap_nil,
    List.filterMap_append, ← changesOf]
  split
  · next heq => simp [heq]
  · next hne => simp [hne]

section Purge

variable {tag : String} {summary : PurgeSummary}

/-- A purge takes no instance out of the log. -/
theorem instances_purge : instances (log ++ [⟨.purge tag, summary⟩]) = log.instances :=
  instances_of_none rfl

/-- A purge takes no execution out of the log. -/
theorem executions_purge : executions (log ++ [⟨.purge tag, summary⟩]) = log.executions :=
  executions_of_none rfl

/-- A purge takes no step execution out of the log. -/
theorem steps_purge : steps (log ++ [⟨.purge tag, summary⟩]) = log.steps :=
  steps_of_none rfl

/-- A purge takes no change out of the log. -/
theorem changesOf_purge (id : ExecutionId) :
    changesOf (log ++ [⟨.purge tag, summary⟩]) id = log.changesOf id :=
  changesOf_of_none rfl id

end Purge

/-- What was purged since it was created stays purged. -/
theorem PurgedSince.append {i : JobInstance} (h : log.PurgedSince i) (other : CallLog) :
    PurgedSince (log ++ other) i := by
  obtain ⟨before, after, rfl, hmade, htag⟩ := h
  refine ⟨before, after ++ other, List.append_assoc .., hmade, ?_⟩
  rw [List.filterMap_append]
  exact List.mem_append_left _ htag

/-- What follows in a log is a purge. -/
theorem purgedSince_purge {i : JobInstance} (h : i ∈ log.instances) {summary : PurgeSummary} :
    PurgedSince (log ++ [⟨.purge i.appTag, summary⟩]) i :=
  ⟨log, _, rfl, h, List.mem_singleton.mpr rfl⟩

end CallLog

/-! ## Numbers that are given out -/

/-- Identifiers have the numbers from one on, one after the other. -/
def CountsUp {entity : Entity} (ids : List (Id entity)) : Prop :=
  ∀ n id, ids[n]? = some id → id.number = n + 1

/-- In each kind, what was created first has the number one, and whatever was created next has the
next number. -/
structure CallLog.IsNumbered (log : CallLog) : Prop where
  instances : CountsUp (log.instances.map JobInstance.id)
  executions : CountsUp (log.executions.map ExecutionStart.id)
  steps : CountsUp (log.steps.map StepStart.id)

end JobLedger
