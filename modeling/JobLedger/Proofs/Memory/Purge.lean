import JobLedger.Proofs.Memory.WellFormed

/-!
# What a purge leaves

A purge takes the rows of a tag out of every table. Whom a row belongs to is followed from table to
table as the ledger stood before; in a well-formed ledger the rows that are left belong to rows that
are left, so that it stays well-formed.
-/

namespace JobLedger

namespace Memory

variable (tag : String) (m : Memory)

/-- The instances of a tag. -/
def instancesOf : List InstanceId :=
  (m.instances.filter fun i => i.appTag = tag).map JobInstance.id

/-- The executions of the instances of a tag. -/
def executionsOfTag : List ExecutionId :=
  (m.executions.filter fun e => (m.instancesOf tag).contains e.instanceId).map JobExecution.id

/-- The step executions of the executions of the instances of a tag. -/
def stepsOfTag : List StepId :=
  (m.steps.filter fun s => (m.executionsOfTag tag).contains s.executionId).map StepExecution.id

/-- A checkpoint key begins like those of an instance of a tag. -/
def isKeyOfTag (key : String) : Bool :=
  (m.instancesOf tag).any fun id => (CheckpointKey.instancePrefix id).toList.isPrefixOf key.toList

/-- The ledger without the rows of a tag. -/
def remaining : Memory :=
  { m with
    instances := m.instances.filter fun i => !decide (i.appTag = tag)
    executions := m.executions.filter fun e => !(m.instancesOf tag).contains e.instanceId
    steps := m.steps.filter fun s => !(m.executionsOfTag tag).contains s.executionId
    jobStatuses := m.jobStatuses.filter fun status => !(m.instancesOf tag).contains status.instanceId
    stepStatuses := m.stepStatuses.filter fun status => !(m.stepsOfTag tag).contains status.statusId
    checkpoints := m.checkpoints.filter fun row => !m.isKeyOfTag tag row.1 }

/-- How many rows of each table belong to a tag. -/
def countTag : PurgeSummary :=
  ⟨(m.instances.filter fun i => decide (i.appTag = tag)).length,
    (m.executions.filter fun e => (m.instancesOf tag).contains e.instanceId).length,
    (m.steps.filter fun s => (m.executionsOfTag tag).contains s.executionId).length,
    (m.jobStatuses.filter fun status => (m.instancesOf tag).contains status.instanceId).length,
    (m.stepStatuses.filter fun status => (m.stepsOfTag tag).contains status.statusId).length,
    (m.checkpoints.filter fun row => m.isKeyOfTag tag row.1).length⟩

namespace WellFormed

variable {tag : String} {m : Memory} (h : WellFormed m)

include h

/-- A purge leaves what does not belong to the tag, and counts what does. -/
theorem purge_eq : m.purge tag = (m.countTag tag, m.remaining tag) := by
  have hinstances : (m.instances.filter fun i => !(m.instancesOf tag).contains i.id) =
      m.instances.filter fun i => !decide (i.appTag = tag) :=
    List.filter_congr fun i hi => by
      rw [instancesOf, h.instances_sorted.distinct.contains_map_filter hi]
  have hexecutions : (m.executions.filter fun e => !(m.executionsOfTag tag).contains e.id) =
      m.executions.filter fun e => !(m.instancesOf tag).contains e.instanceId :=
    List.filter_congr fun e he => by
      rw [executionsOfTag, h.executions_sorted.distinct.contains_map_filter he]
  have hsteps : (m.steps.filter fun s => !(m.stepsOfTag tag).contains s.id) =
      m.steps.filter fun s => !(m.executionsOfTag tag).contains s.executionId :=
    List.filter_congr fun s hs => by
      rw [stepsOfTag, h.steps_sorted.distinct.contains_map_filter hs]
  have hpurge : m.purge tag =
      (⟨m.instances.length - (m.remaining tag).instances.length,
        m.executions.length - (m.remaining tag).executions.length,
        m.steps.length - (m.remaining tag).steps.length,
        m.jobStatuses.length - (m.remaining tag).jobStatuses.length,
        m.stepStatuses.length - (m.remaining tag).stepStatuses.length,
        m.checkpoints.length - (m.remaining tag).checkpoints.length⟩, m.remaining tag) := by
    simp only [remaining, ← hinstances, ← hexecutions, ← hsteps]
    rfl
  rw [hpurge]
  simp only [remaining, length_sub_length_filter, countTag]

/-- A ledger stays well-formed without the rows of a tag. -/
theorem remaining (tag : String) : WellFormed (m.remaining tag) where
  instances_sorted := h.instances_sorted.filter _
  executions_sorted := h.executions_sorted.filter _
  steps_sorted := h.steps_sorted.filter _
  jobStatuses_distinct := h.jobStatuses_distinct.filter _
  stepStatuses_distinct := h.stepStatuses_distinct.filter _
  instance_le i hi := h.instance_le i (List.mem_filter.mp hi).1
  execution_le e he := h.execution_le e (List.mem_filter.mp he).1
  step_le s hs := h.step_le s (List.mem_filter.mp hs).1
  execution_owner e he := by
    obtain ⟨hmem, hstays⟩ := List.mem_filter.mp he
    exact exists_mem_filter (h.execution_owner e hmem) (fun i hi => hi.1)
      ((Bool.not_eq_true' _).mp hstays)
  step_owner s hs := by
    obtain ⟨hmem, hstays⟩ := List.mem_filter.mp hs
    exact exists_mem_filter (h.step_owner s hmem) (fun e he => he)
      ((Bool.not_eq_true' _).mp hstays)
  jobStatus_owner status hstatus := by
    obtain ⟨hmem, hstays⟩ := List.mem_filter.mp hstatus
    exact exists_mem_filter (h.jobStatus_owner status hmem) (fun i hi => hi)
      ((Bool.not_eq_true' _).mp hstays)
  stepStatus_owner status hstatus := by
    obtain ⟨hmem, hstays⟩ := List.mem_filter.mp hstatus
    exact exists_mem_filter (h.stepStatus_owner status hmem) (fun s hs => hs)
      ((Bool.not_eq_true' _).mp hstays)
  stepName_proper s hs := h.stepName_proper s (List.mem_filter.mp hs).1
  checkpoints_paired := by
    obtain ⟨entries, hrows, hdistinct⟩ := h.checkpoints_paired
    refine ⟨dropPairs (m.instancesOf tag).contains entries, ?_, hdistinct.filter _⟩
    simp only [Memory.remaining, hrows, isKeyOfTag]
    exact filter_pairRows (m.instancesOf tag) entries

end WellFormed

end Memory

end JobLedger
