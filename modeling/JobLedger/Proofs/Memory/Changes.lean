import JobLedger.Proofs.Memory.Calls

/-!
# What a call can do to a ledger in memory

A call either leaves a ledger as it was or makes the one change that it is for, and then what it needs
was there. What a call leaves alone is read off here, table by table.
-/

namespace JobLedger

open JobLedger.Action Text

namespace Memory

/-- The changes that a call can make to a ledger. -/
inductive Changes : Call → Memory → Memory → Prop where
  | same (call : Call) (m : Memory) : Changes call m m
  | createInstance {m : Memory} {id : InstanceId} {name appTag : String}
      {definition : Option String} (hid : nextId m.lastInstance = .ok id) :
    Changes (.createInstance name appTag definition) m
      { m with
        lastInstance := id.number, instances := m.instances ++ [⟨id, name, appTag, definition⟩] }
  | createPartition {m : Memory} {id : InstanceId} {name : PartitionName} {appTag : String}
      (hid : nextId m.lastInstance = .ok id) :
    Changes (.createPartition name appTag) m
      { m with
        lastInstance := id.number, instances := m.instances ++ [⟨id, name.encode, appTag, none⟩] }
  | createExecution {m : Memory} {id : InstanceId} {i : JobInstance} {execution : ExecutionId}
      {parameters : JobParameters} {status : BatchStatus} {time : Timestamp}
      (hi : m.instance? id = some i) (hid : nextId m.lastExecution = .ok execution) :
    Changes (.createExecution id parameters status time) m
      { m with
        lastExecution := execution.number
        executions := m.executions ++
          [⟨execution, id, i.name, time, none, none, time, status, none, parameters⟩] }
  | markStarted {m : Memory} {id : ExecutionId} {e : JobExecution} {time : Timestamp}
      (he : m.execution? id = some e) :
    Changes (.markStarted id time) m (m.modifyExecution id fun e =>
      { e with status := .started, startTime := some time, updateTime := time })
  | setExecutionStatus {m : Memory} {id : ExecutionId} {e : JobExecution} {status : BatchStatus}
      {time : Timestamp} (he : m.execution? id = some e) :
    Changes (.setExecutionStatus id status time) m (m.modifyExecution id fun e =>
      { e with status := status, updateTime := time })
  | finalizeExecution {m : Memory} {id : ExecutionId} {e : JobExecution} {status : BatchStatus}
      {exitStatus : String} {time : Timestamp} (he : m.execution? id = some e) :
    Changes (.finalizeExecution id status exitStatus time) m (m.modifyExecution id fun e =>
      { e with
        status := status, exitStatus := some exitStatus, endTime := some time, updateTime := time })
  | createStep {m : Memory} {id : ExecutionId} {e : JobExecution} {stepId : StepId} {step : String}
      {metrics : StepMetrics} {time : Timestamp} (hname : stepNameFault? step = none)
      (he : m.execution? id = some e) (hid : nextId m.lastStep = .ok stepId) :
    Changes (.createStep id step metrics time) m
      { m with
        lastStep := stepId.number
        steps := m.steps ++ [⟨stepId, id, step, .starting, none, metrics, time, none, none⟩] }
  | updateStep {m : Memory} {id : StepId} {s : StepExecution} {owner : JobExecution}
      {update : StepUpdate} (hs : m.step? id = some s)
      (howner : m.execution? s.executionId = some owner) (hopen : owner.status.isTerminal = false) :
    Changes (.updateStep id update) m (m.modifyStep id update.apply)
  | purge {m : Memory} {tag : String} : Changes (.purge tag) m (m.purge tag).2
  | createJobStatus {m : Memory} {id : InstanceId} {i : JobInstance} (hi : m.instance? id = some i)
      (hnew : m.jobStatus? id = none) :
    Changes (.createJobStatus id) m { m with jobStatuses := m.jobStatuses ++ [JobStatus.fresh id] }
  | updateJobStatus {m : Memory} {status old : JobStatus}
      (hold : m.jobStatus? status.instanceId = some old) :
    Changes (.updateJobStatus status) m (m.setJobStatus status)
  | createStepStatus {m : Memory} {id : StepId} {s : StepExecution} (hs : m.step? id = some s)
      (hnew : m.stepStatus? id = none) :
    Changes (.createStepStatus id) m
      { m with stepStatuses := m.stepStatuses ++ [StepStatus.fresh id] }
  | updateStepStatus {m : Memory} {status old : StepStatus}
      (hold : m.stepStatus? status.statusId = some old) :
    Changes (.updateStepStatus status) m (m.setStepStatus status)
  | incrementStartCount {m : Memory} {id : StepId} {old : StepStatus}
      (hold : m.stepStatus? id = some old) (hroom : old.startCount.toNat + 1 < UInt32.size) :
    Changes (.incrementStartCount id) m
      (m.setStepStatus { old with startCount := old.startCount + 1 })
  | createPair {m next : Memory} {id : InstanceId} {step : String}
      (hname : stepNameFault? step = none) (h : m.createPair id step = .ok ((), next)) :
    Changes (.createPair id step) m next
  | updatePair {m next : Memory} {id : InstanceId} {step : String} {pair : CheckpointPair}
      (h : m.updatePair id step pair = .ok ((), next)) :
    Changes (.updatePair id step pair) m next

section Calls

variable {m next : Memory} {u : Unit}

/-- An execution that is not missing is found. -/
theorem execution_eq_ok {id : ExecutionId} {e : JobExecution} (h : m.execution id = .ok e) :
    m.execution? id = some e := by
  rw [execution_eq] at h
  split at h
  · cases h
  · next he => rw [he, Except.ok.inj h]

/-- A call that creates an instance does nothing else. -/
theorem createInstance_eq_ok {name appTag : String} {definition : Option String} {i : JobInstance}
    (h : m.createInstance name appTag definition = .ok (i, next)) :
    ∃ id, nextId m.lastInstance = .ok id ∧ i = ⟨id, name, appTag, definition⟩ ∧
      next = { m with lastInstance := id.number, instances := m.instances ++ [i] } := by
  rw [createInstance] at h
  cases hid : (nextId m.lastInstance : Except LedgerError InstanceId) with
  | error e =>
    rw [hid] at h
    cases h
  | ok id =>
    rw [hid] at h
    obtain ⟨rfl, rfl⟩ := Prod.mk.inj (Except.ok.inj h)
    exact ⟨id, rfl, rfl, rfl⟩

/-- A call that creates an execution has found its instance, and does nothing else. -/
theorem createExecution_eq_ok {id : InstanceId} {parameters : JobParameters}
    {status : BatchStatus} {time : Timestamp} {execution : ExecutionId}
    (h : m.createExecution id parameters status time = .ok (execution, next)) :
    ∃ i, m.instance? id = some i ∧ nextId m.lastExecution = .ok execution ∧
      next = { m with
        lastExecution := execution.number
        executions := m.executions ++
          [⟨execution, id, i.name, time, none, none, time, status, none, parameters⟩] } := by
  rw [createExecution] at h
  cases hi : m.instance? id with
  | none =>
    rw [hi] at h
    cases h
  | some i =>
    rw [hi] at h
    cases hid : (nextId m.lastExecution : Except LedgerError ExecutionId) with
    | error e =>
      rw [hid] at h
      cases h
    | ok execution =>
      rw [hid] at h
      obtain ⟨rfl, rfl⟩ := Prod.mk.inj (Except.ok.inj h)
      exact ⟨i, rfl, rfl, rfl⟩

/-- A call that changes an execution has found it, and does nothing else. -/
theorem changeExecution_eq_ok {id : ExecutionId} {f : JobExecution → JobExecution}
    (h : m.changeExecution id f = .ok (u, next)) :
    ∃ e, m.execution? id = some e ∧ next = m.modifyExecution id f := by
  rw [changeExecution, execution_eq] at h
  cases he : m.execution? id with
  | none =>
    rw [he] at h
    cases h
  | some e =>
    rw [he] at h
    exact ⟨e, rfl, (Prod.mk.inj (Except.ok.inj h)).2.symm⟩

/-- A call that creates a step execution has found its execution, and does nothing else. -/
theorem createStep_eq_ok {id : ExecutionId} {step : String} {metrics : StepMetrics}
    {time : Timestamp} {stepId : StepId}
    (h : m.createStep id step metrics time = .ok (stepId, next)) :
    ∃ e, m.execution? id = some e ∧ nextId m.lastStep = .ok stepId ∧
      next = { m with
        lastStep := stepId.number
        steps := m.steps ++ [⟨stepId, id, step, .starting, none, metrics, time, none, none⟩] } := by
  rw [createStep, execution_eq] at h
  cases he : m.execution? id with
  | none =>
    rw [he] at h
    cases h
  | some e =>
    rw [he] at h
    cases hid : (nextId m.lastStep : Except LedgerError StepId) with
    | error e =>
      rw [hid] at h
      cases h
    | ok stepId =>
      rw [hid] at h
      obtain ⟨rfl, rfl⟩ := Prod.mk.inj (Except.ok.inj h)
      exact ⟨e, rfl, rfl, rfl⟩

/-- A call that updates a step execution has found its execution on its way, and does nothing else.
-/
theorem updateStep_eq_ok {id : StepId} {update : StepUpdate}
    (h : m.updateStep id update = .ok (u, next)) :
    ∃ s owner, m.step? id = some s ∧ m.execution? s.executionId = some owner ∧
      owner.status.isTerminal = false ∧ next = m.modifyStep id update.apply := by
  rw [updateStep] at h
  cases hs : m.step? id with
  | none =>
    rw [hs] at h
    cases h
  | some s =>
    rw [hs] at h
    obtain ⟨owner, howner, hchange⟩ := bind_eq_ok_iff.mp h
    split at hchange
    · cases hchange
    · next hopen =>
      exact ⟨s, owner, rfl, execution_eq_ok howner, Bool.not_eq_true _ ▸ hopen,
        (Prod.mk.inj (Except.ok.inj hchange)).2.symm⟩

/-- A call that creates a status record has found an instance without one, and does nothing else. -/
theorem createJobStatus_eq_ok {id : InstanceId} {status : JobStatus}
    (h : m.createJobStatus id = .ok (status, next)) :
    ∃ i, m.instance? id = some i ∧ m.jobStatus? id = none ∧ status = JobStatus.fresh id ∧
      next = { m with jobStatuses := m.jobStatuses ++ [status] } := by
  rw [createJobStatus] at h
  cases hi : m.instance? id with
  | none =>
    rw [hi] at h
    cases h
  | some i =>
    rw [hi] at h
    cases hstatus : m.jobStatus? id with
    | some old =>
      rw [hstatus] at h
      cases h
    | none =>
      rw [hstatus] at h
      obtain ⟨rfl, rfl⟩ := Prod.mk.inj (Except.ok.inj h)
      exact ⟨i, rfl, rfl, rfl, rfl⟩

/-- A call that replaces a status record has found one, and does nothing else. -/
theorem updateJobStatus_eq_ok {status : JobStatus} (h : m.updateJobStatus status = .ok (u, next)) :
    ∃ old, m.jobStatus? status.instanceId = some old ∧ next = m.setJobStatus status := by
  rw [updateJobStatus] at h
  cases hold : m.jobStatus? status.instanceId with
  | none =>
    rw [hold] at h
    cases h
  | some old =>
    rw [hold] at h
    exact ⟨old, rfl, (Prod.mk.inj (Except.ok.inj h)).2.symm⟩

/-- A call that creates the status record of a step has found none, and does nothing else. -/
theorem createStepStatus_eq_ok {id : StepId} {status : StepStatus}
    (h : m.createStepStatus id = .ok (status, next)) :
    ∃ s, m.step? id = some s ∧ m.stepStatus? id = none ∧ status = StepStatus.fresh id ∧
      next = { m with stepStatuses := m.stepStatuses ++ [status] } := by
  rw [createStepStatus] at h
  cases hs : m.step? id with
  | none =>
    rw [hs] at h
    cases h
  | some s =>
    rw [hs] at h
    cases hstatus : m.stepStatus? id with
    | some old =>
      rw [hstatus] at h
      cases h
    | none =>
      rw [hstatus] at h
      obtain ⟨rfl, rfl⟩ := Prod.mk.inj (Except.ok.inj h)
      exact ⟨s, rfl, rfl, rfl, rfl⟩

/-- A call that replaces the status record of a step has found one, and does nothing else. -/
theorem updateStepStatus_eq_ok {status : StepStatus}
    (h : m.updateStepStatus status = .ok (u, next)) :
    ∃ old, m.stepStatus? status.statusId = some old ∧ next = m.setStepStatus status := by
  rw [updateStepStatus] at h
  cases hold : m.stepStatus? status.statusId with
  | none =>
    rw [hold] at h
    cases h
  | some old =>
    rw [hold] at h
    exact ⟨old, rfl, (Prod.mk.inj (Except.ok.inj h)).2.symm⟩

/-- A call that counts a start has found room for it, and does nothing else. -/
theorem incrementStartCount_eq_ok {id : StepId} {count : UInt32}
    (h : m.incrementStartCount id = .ok (count, next)) :
    ∃ old, m.stepStatus? id = some old ∧ old.startCount.toNat + 1 < UInt32.size ∧
      count = old.startCount + 1 ∧ next = m.setStepStatus { old with startCount := count } := by
  rw [incrementStartCount] at h
  cases hold : m.stepStatus? id with
  | none =>
    rw [hold] at h
    cases h
  | some old =>
    rw [hold] at h
    dsimp only at h
    split at h
    · next hroom =>
      obtain ⟨rfl, rfl⟩ := Prod.mk.inj (Except.ok.inj h)
      exact ⟨old, rfl, hroom, rfl, rfl⟩
    · cases h

/-- A call that creates a pair adds its two rows, and does nothing else. -/
theorem createPair_eq_ok {id : InstanceId} {step : String}
    (h : m.createPair id step = .ok (u, next)) :
    next = { m with
      checkpoints := m.checkpoints ++
        [((CheckpointKey.ofPair id step .reader).encode, none),
          ((CheckpointKey.ofPair id step .writer).encode, none)] } := by
  rw [createPair] at h
  split at h
  · cases h
  · exact (Prod.mk.inj (Except.ok.inj h)).2.symm

/-- A call that replaces a pair sets its two tokens, and does nothing else. -/
theorem updatePair_eq_ok {id : InstanceId} {step : String} {pair : CheckpointPair}
    (h : m.updatePair id step pair = .ok (u, next)) :
    next = (m.setToken (.ofPair id step .reader) pair.reader).setToken (.ofPair id step .writer)
      pair.writer := by
  rw [updatePair] at h
  split at h
  · cases h
  · exact (Prod.mk.inj (Except.ok.inj h)).2.symm

namespace Changes

variable {call : Call}

/-- A change does what its results say, and nothing if it fails. -/
theorem of_change {α : Type} {f : Memory → Except LedgerError (α × Memory)}
    (h : ∀ a next, f m = .ok (a, next) → Changes call m next) :
    Changes call m (change f m).state := by
  cases hf : f m with
  | error e =>
    rw [change_error hf]
    exact .same call m
  | ok result =>
    rw [change_ok hf]
    exact h result.1 result.2 hf

/-- A call with a step name fails, or the name is let through. -/
theorem of_ensureStepName {α : Type} {step : String} {x : Action LedgerError Memory α}
    (h : stepNameFault? step = none → Changes call m (x m).state) :
    Changes call m ((ensureStepName step >>= fun _ => x) m).state := by
  rw [ensureStepName]
  cases hfault : stepNameFault? step with
  | none => exact h hfault
  | some fault => exact .same call m

end Changes

/-- Whatever a call does, it is one of the changes that the call can make. -/
theorem changes_perform (call : Call) (m : Memory) :
    Changes call m (LedgerStore.perform call m).state := by
  rw [perform_eq]
  cases call with
  | createInstance name appTag definition =>
    refine .of_change fun _ _ h => ?_
    obtain ⟨id, hid, rfl, rfl⟩ := createInstance_eq_ok h
    exact .createInstance hid
  | createPartition name appTag =>
    refine .of_change fun _ _ h => ?_
    obtain ⟨id, hid, rfl, rfl⟩ := createInstance_eq_ok h
    exact .createPartition hid
  | createExecution id parameters status time =>
    refine .of_change fun _ _ h => ?_
    obtain ⟨i, hi, hid, rfl⟩ := createExecution_eq_ok h
    exact .createExecution hi hid
  | markStarted id time =>
    refine .of_change fun _ _ h => ?_
    obtain ⟨e, he, rfl⟩ := changeExecution_eq_ok h
    exact .markStarted he
  | setExecutionStatus id status time =>
    refine .of_change fun _ _ h => ?_
    obtain ⟨e, he, rfl⟩ := changeExecution_eq_ok h
    exact .setExecutionStatus he
  | finalizeExecution id status exitStatus time =>
    refine .of_change fun _ _ h => ?_
    obtain ⟨e, he, rfl⟩ := changeExecution_eq_ok h
    exact .finalizeExecution he
  | createStep id step metrics time =>
    refine .of_ensureStepName fun hname => .of_change fun _ _ h => ?_
    obtain ⟨e, he, hid, rfl⟩ := createStep_eq_ok h
    exact .createStep hname he hid
  | updateStep id update =>
    refine .of_change fun _ _ h => ?_
    obtain ⟨s, owner, hs, howner, hopen, rfl⟩ := updateStep_eq_ok h
    exact .updateStep hs howner hopen
  | purge tag => exact .purge
  | createJobStatus id =>
    refine .of_change fun _ _ h => ?_
    obtain ⟨i, hi, hnew, rfl, rfl⟩ := createJobStatus_eq_ok h
    exact .createJobStatus hi hnew
  | updateJobStatus status =>
    refine .of_change fun _ _ h => ?_
    obtain ⟨old, hold, rfl⟩ := updateJobStatus_eq_ok h
    exact .updateJobStatus hold
  | createStepStatus id =>
    refine .of_change fun _ _ h => ?_
    obtain ⟨s, hs, hnew, rfl, rfl⟩ := createStepStatus_eq_ok h
    exact .createStepStatus hs hnew
  | updateStepStatus status =>
    refine .of_change fun _ _ h => ?_
    obtain ⟨old, hold, rfl⟩ := updateStepStatus_eq_ok h
    exact .updateStepStatus hold
  | incrementStartCount id =>
    refine .of_change fun _ _ h => ?_
    obtain ⟨old, hold, hroom, rfl, rfl⟩ := incrementStartCount_eq_ok h
    exact .incrementStartCount hold hroom
  | createPair id step =>
    exact .of_ensureStepName fun hname => .of_change fun _ next h => .createPair hname h
  | updatePair id step pair => exact .of_change fun _ next h => .updatePair h
  | _ => exact .same _ m

end Calls

end Memory

end JobLedger
