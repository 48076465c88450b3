import JobLedger.Proofs.Memory.Pairs

/-!
# Well-formed ledgers in memory

The tables of a ledger in memory hang together: rows are numbered in the order in which they were
created and never beyond the counter of their kind, every row belongs to one that is there, and
restart tokens come in pairs. The changes that calls make to a ledger leave it well-formed.
-/

namespace JobLedger

namespace Memory

/-- Rows are numbered in order. -/
def SortedIds {ρ : Type} {entity : Entity} (key : ρ → Id entity) (rows : List ρ) : Prop :=
  rows.Pairwise fun a b => (key a).number < (key b).number

section SortedIds

variable {ρ : Type} {entity : Entity} {key : ρ → Id entity} {rows : List ρ} {last : Nat}

/-- Rows that are numbered in order have different numbers. -/
theorem SortedIds.distinct (h : SortedIds key rows) : DistinctKeys key rows :=
  h.imp fun hlt heq => by
    rw [heq] at hlt
    exact Nat.lt_irrefl _ hlt

/-- A row behind the counter comes last. -/
theorem SortedIds.append (h : SortedIds key rows) (hle : ∀ a ∈ rows, (key a).number ≤ last) {b : ρ}
    (hb : (key b).number = last + 1) : SortedIds key (rows ++ [b]) := by
  refine List.pairwise_append.mpr ⟨h, List.pairwise_singleton _ _, ?_⟩
  intro a ha c hc
  rw [List.mem_singleton.mp hc]
  have hle := hle a ha
  omega

/-- There are no more rows than numbers up to the counter. -/
theorem SortedIds.length_le (h : SortedIds key rows) (hle : ∀ a ∈ rows, (key a).number ≤ last) :
    rows.length ≤ last := by
  -- Behind a number there is room for as many rows as there are numbers left.
  suffices hroom : ∀ {low : Nat} {others : List ρ}, SortedIds key others →
      (∀ a ∈ others, low < (key a).number ∧ (key a).number ≤ last) → others.length ≤ last - low by
    have hall := hroom h fun a ha => ⟨(key a).pos, hle a ha⟩
    omega
  intro low others hothers hbounds
  induction others generalizing low with
  | nil => exact Nat.zero_le _
  | cons a rest ih =>
    obtain ⟨hfirst, hrest⟩ := List.pairwise_cons.mp hothers
    obtain ⟨hlow, hlast⟩ := hbounds a List.mem_cons_self
    have hlength := ih hrest fun b hb =>
      ⟨hfirst b hb, (hbounds b (List.mem_cons_of_mem _ hb)).2⟩
    rw [List.length_cons]
    omega

/-- Behind a record with the next number, that number is the last one. -/
theorem le_append (hle : ∀ a ∈ rows, (key a).number ≤ last) {b : ρ}
    (hb : (key b).number = last + 1) : ∀ a ∈ rows ++ [b], (key a).number ≤ (key b).number := by
  rw [List.forall_mem_append, List.forall_mem_singleton]
  refine ⟨fun a ha => ?_, Nat.le_refl _⟩
  have hle := hle a ha
  omega

/-- A change that leaves the number leaves the order. -/
theorem SortedIds.changeRow (h : SortedIds key rows) {k : Id entity} {f : ρ → ρ}
    (hf : ∀ a, key a = k → key (f a) = key a) : SortedIds key (changeRow key k f rows) :=
  pairwise_changeRow (r := fun a b : Id entity => a.number < b.number) h hf

end SortedIds

/-- The tables hang together. -/
structure WellFormed (m : Memory) : Prop where
  instances_sorted : SortedIds JobInstance.id m.instances
  executions_sorted : SortedIds JobExecution.id m.executions
  steps_sorted : SortedIds StepExecution.id m.steps
  jobStatuses_distinct : DistinctKeys JobStatus.instanceId m.jobStatuses
  stepStatuses_distinct : DistinctKeys StepStatus.statusId m.stepStatuses
  instance_le : ∀ i ∈ m.instances, i.id.number ≤ m.lastInstance
  execution_le : ∀ e ∈ m.executions, e.id.number ≤ m.lastExecution
  step_le : ∀ s ∈ m.steps, s.id.number ≤ m.lastStep
  /-- An execution belongs to an instance, and has its name. -/
  execution_owner : ∀ e ∈ m.executions, ∃ i ∈ m.instances, i.id = e.instanceId ∧ i.name = e.jobName
  step_owner : ∀ s ∈ m.steps, ∃ e ∈ m.executions, e.id = s.executionId
  jobStatus_owner : ∀ status ∈ m.jobStatuses, ∃ i ∈ m.instances, i.id = status.instanceId
  stepStatus_owner : ∀ status ∈ m.stepStatuses, ∃ s ∈ m.steps, s.id = status.statusId
  stepName_proper : ∀ s ∈ m.steps, stepNameFault? s.stepName = none
  checkpoints_paired : ∃ entries, HoldsPairs m.checkpoints entries

/-- An empty ledger is well-formed. -/
theorem wellFormed_empty : WellFormed empty where
  instances_sorted := .nil
  executions_sorted := .nil
  steps_sorted := .nil
  jobStatuses_distinct := .nil
  stepStatuses_distinct := .nil
  instance_le _ h := nomatch h
  execution_le _ h := nomatch h
  step_le _ h := nomatch h
  execution_owner _ h := nomatch h
  step_owner _ h := nomatch h
  jobStatus_owner _ h := nomatch h
  stepStatus_owner _ h := nomatch h
  stepName_proper _ h := nomatch h
  checkpoints_paired := ⟨[], rfl, .nil⟩

namespace WellFormed

variable {m : Memory}

section Lookup

variable (h : WellFormed m)

include h

/-- As identifiers are distinct, an instance is found if it is there. -/
theorem instance?_eq_some_iff {id : InstanceId} {i : JobInstance} :
    m.instance? id = some i ↔ i ∈ m.instances ∧ i.id = id :=
  h.instances_sorted.distinct.find?_eq_some_iff

/-- As identifiers are distinct, an execution is found if it is there. -/
theorem execution?_eq_some_iff {id : ExecutionId} {e : JobExecution} :
    m.execution? id = some e ↔ e ∈ m.executions ∧ e.id = id :=
  h.executions_sorted.distinct.find?_eq_some_iff

/-- As identifiers are distinct, a step execution is found if it is there. -/
theorem step?_eq_some_iff {id : StepId} {s : StepExecution} :
    m.step? id = some s ↔ s ∈ m.steps ∧ s.id = id :=
  h.steps_sorted.distinct.find?_eq_some_iff

/-- As an instance has one status record, that record is found if it is there. -/
theorem jobStatus?_eq_some_iff {id : InstanceId} {status : JobStatus} :
    m.jobStatus? id = some status ↔ status ∈ m.jobStatuses ∧ status.instanceId = id :=
  h.jobStatuses_distinct.find?_eq_some_iff

/-- As a step execution has one status record, that record is found if it is there. -/
theorem stepStatus?_eq_some_iff {id : StepId} {status : StepStatus} :
    m.stepStatus? id = some status ↔ status ∈ m.stepStatuses ∧ status.statusId = id :=
  h.stepStatuses_distinct.find?_eq_some_iff

/-- No instance has a number that was not given out. -/
theorem instance?_le {id : InstanceId} {i : JobInstance} (hi : m.instance? id = some i) :
    id.number ≤ m.lastInstance := by
  obtain ⟨hmem, rfl⟩ := h.instance?_eq_some_iff.mp hi
  exact h.instance_le i hmem

/-- No execution has a number that was not given out. -/
theorem execution?_le {id : ExecutionId} {e : JobExecution} (he : m.execution? id = some e) :
    id.number ≤ m.lastExecution := by
  obtain ⟨hmem, rfl⟩ := h.execution?_eq_some_iff.mp he
  exact h.execution_le e hmem

/-- No step execution has a number that was not given out. -/
theorem step?_le {id : StepId} {s : StepExecution} (hs : m.step? id = some s) :
    id.number ≤ m.lastStep := by
  obtain ⟨hmem, rfl⟩ := h.step?_eq_some_iff.mp hs
  exact h.step_le s hmem

/-- The instance of an execution is there. -/
theorem exists_instance {e : JobExecution} (he : e ∈ m.executions) :
    ∃ i, m.instance? e.instanceId = some i ∧ i.name = e.jobName := by
  obtain ⟨i, hi, hid, hname⟩ := h.execution_owner e he
  exact ⟨i, h.instance?_eq_some_iff.mpr ⟨hi, hid⟩, hname⟩

/-- The execution of a step execution is there. -/
theorem exists_execution {s : StepExecution} (hs : s ∈ m.steps) :
    ∃ e, m.execution? s.executionId = some e := by
  obtain ⟨e, he, hid⟩ := h.step_owner s hs
  exact ⟨e, h.execution?_eq_some_iff.mpr ⟨he, hid⟩⟩

end Lookup

section Changes

variable (h : WellFormed m)

include h

/-- An instance with the next number may be added. -/
theorem addInstance {i : JobInstance} (hid : i.id.number = m.lastInstance + 1) :
    WellFormed { m with lastInstance := i.id.number, instances := m.instances ++ [i] } :=
  { h with
    instances_sorted := h.instances_sorted.append h.instance_le hid
    instance_le := le_append h.instance_le hid
    execution_owner := fun e he =>
      let ⟨owner, howner, hof⟩ := h.execution_owner e he
      ⟨owner, List.mem_append_left _ howner, hof⟩
    jobStatus_owner := fun status hstatus =>
      let ⟨owner, howner, hof⟩ := h.jobStatus_owner status hstatus
      ⟨owner, List.mem_append_left _ howner, hof⟩ }

/-- An execution with the next number may be added to an instance of its job name. -/
theorem addExecution {e : JobExecution} (hid : e.id.number = m.lastExecution + 1)
    (howner : ∃ i ∈ m.instances, i.id = e.instanceId ∧ i.name = e.jobName) :
    WellFormed { m with lastExecution := e.id.number, executions := m.executions ++ [e] } :=
  { h with
    executions_sorted := h.executions_sorted.append h.execution_le hid
    execution_le := le_append h.execution_le hid
    execution_owner :=
      List.forall_mem_append.mpr ⟨h.execution_owner, List.forall_mem_singleton.mpr howner⟩
    step_owner := fun s hs =>
      let ⟨owner, howner, hof⟩ := h.step_owner s hs
      ⟨owner, List.mem_append_left _ howner, hof⟩ }

/-- A step execution with the next number may be added to an execution, under a step name. -/
theorem addStep {s : StepExecution} (hid : s.id.number = m.lastStep + 1)
    (howner : ∃ e ∈ m.executions, e.id = s.executionId)
    (hname : stepNameFault? s.stepName = none) :
    WellFormed { m with lastStep := s.id.number, steps := m.steps ++ [s] } :=
  { h with
    steps_sorted := h.steps_sorted.append h.step_le hid
    step_le := le_append h.step_le hid
    step_owner :=
      List.forall_mem_append.mpr ⟨h.step_owner, List.forall_mem_singleton.mpr howner⟩
    stepStatus_owner := fun status hstatus =>
      let ⟨owner, howner, hof⟩ := h.stepStatus_owner status hstatus
      ⟨owner, List.mem_append_left _ howner, hof⟩
    stepName_proper :=
      List.forall_mem_append.mpr ⟨h.stepName_proper, List.forall_mem_singleton.mpr hname⟩ }

/-- A change of an execution that leaves what it is and whom it belongs to. -/
theorem modifyExecution {id : ExecutionId} {f : JobExecution → JobExecution}
    (hid : ∀ e, (f e).id = e.id) (hinstance : ∀ e, (f e).instanceId = e.instanceId)
    (hname : ∀ e, (f e).jobName = e.jobName) : WellFormed (m.modifyExecution id f) :=
  { h with
    executions_sorted := h.executions_sorted.changeRow fun e _ => hid e
    execution_le := forall_changeRow JobExecution.id h.execution_le fun e _ he => by rwa [hid]
    execution_owner := forall_changeRow JobExecution.id h.execution_owner fun e _ he => by
      rwa [hinstance, hname]
    step_owner := fun s hs => exists_changeRow (h.step_owner s hs) fun e _ he => by rwa [hid] }

/-- A change of a step execution that leaves what it is, its name and whom it belongs to. -/
theorem modifyStep {id : StepId} {f : StepExecution → StepExecution} (hid : ∀ s, (f s).id = s.id)
    (hexecution : ∀ s, (f s).executionId = s.executionId)
    (hname : ∀ s, (f s).stepName = s.stepName) : WellFormed (m.modifyStep id f) :=
  { h with
    steps_sorted := h.steps_sorted.changeRow fun s _ => hid s
    step_le := forall_changeRow StepExecution.id h.step_le fun s _ hs => by rwa [hid]
    step_owner := forall_changeRow StepExecution.id h.step_owner fun s _ hs => by rwa [hexecution]
    stepStatus_owner := fun status hstatus =>
      exists_changeRow (h.stepStatus_owner status hstatus) fun s _ hs => by rwa [hid]
    stepName_proper := forall_changeRow StepExecution.id h.stepName_proper fun s _ hs => by
      rwa [hname] }

/-- A status record may take the place of another one of the same instance. -/
theorem setJobStatus (status : JobStatus) : WellFormed (m.setJobStatus status) :=
  { h with
    jobStatuses_distinct := pairwise_changeRow h.jobStatuses_distinct fun _ hk => hk.symm
    jobStatus_owner := forall_changeRow JobStatus.instanceId (f := fun _ => status) h.jobStatus_owner
      fun old hk hold => by rwa [← hk] }

/-- A status record of a step may take the place of another one under the same step execution. -/
theorem setStepStatus (status : StepStatus) : WellFormed (m.setStepStatus status) :=
  { h with
    stepStatuses_distinct := pairwise_changeRow h.stepStatuses_distinct fun _ hk => hk.symm
    stepStatus_owner := forall_changeRow StepStatus.statusId (f := fun _ => status) h.stepStatus_owner
      fun old hk hold => by rwa [← hk] }

/-- A first status record may be added to an instance. -/
theorem addJobStatus {status : JobStatus} (hnew : m.jobStatus? status.instanceId = none)
    (howner : ∃ i ∈ m.instances, i.id = status.instanceId) :
    WellFormed { m with jobStatuses := m.jobStatuses ++ [status] } :=
  { h with
    jobStatuses_distinct := h.jobStatuses_distinct.append hnew
    jobStatus_owner :=
      List.forall_mem_append.mpr ⟨h.jobStatus_owner, List.forall_mem_singleton.mpr howner⟩ }

/-- A first status record may be added under a step execution. -/
theorem addStepStatus {status : StepStatus} (hnew : m.stepStatus? status.statusId = none)
    (howner : ∃ s ∈ m.steps, s.id = status.statusId) :
    WellFormed { m with stepStatuses := m.stepStatuses ++ [status] } :=
  { h with
    stepStatuses_distinct := h.stepStatuses_distinct.append hnew
    stepStatus_owner :=
      List.forall_mem_append.mpr ⟨h.stepStatus_owner, List.forall_mem_singleton.mpr howner⟩ }

end Changes

end WellFormed

end Memory

end JobLedger
