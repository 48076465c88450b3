import JobLedger.Proofs.Memory.Changes
import JobLedger.Proofs.Memory.PurgeExact

/-!
# What a call does to one table

Seen from one table a call leaves the rows as they are, adds one row behind the others, changes one
row, or is a purge. The numbers of rows are not given out twice: a row that is gone stays gone.
-/

namespace JobLedger

/-- The execution that a call gives a status, with the status. -/
def Call.executionStatus? : Call → Option (ExecutionId × BatchStatus)
  | .markStarted id _ => some (id, .started)
  | .setExecutionStatus id status _ => some (id, status)
  | .finalizeExecution id status _ _ => some (id, status)
  | _ => none

/-- The name that a call gives a new instance. -/
def Call.instanceName? : Call → Option String
  | .createInstance name _ _ => some name
  | .createPartition name _ => some name.encode
  | _ => none

namespace Memory

variable {m next : Memory} {call : Call}

namespace Changes

/-- Instances are added and purged. -/
theorem instances_cases (h : Changes call m next) :
    (next.instances = m.instances ∧ next.lastInstance = m.lastInstance) ∨
      (∃ i, call.instanceName? = some i.name ∧ i.id.number = m.lastInstance + 1 ∧
        next.instances = m.instances ++ [i] ∧ next.lastInstance = i.id.number) ∨
      ∃ tag, call = .purge tag ∧ next = (m.purge tag).2 := by
  cases h with
  | createInstance hid => exact .inr (.inl ⟨_, rfl, nextId_eq_ok_iff.mp hid, rfl, rfl⟩)
  | createPartition hid => exact .inr (.inl ⟨_, rfl, nextId_eq_ok_iff.mp hid, rfl, rfl⟩)
  | purge => exact .inr (.inr ⟨_, rfl, rfl⟩)
  | createPair hname h =>
    obtain rfl := createPair_eq_ok h
    exact .inl ⟨rfl, rfl⟩
  | updatePair h =>
    obtain rfl := updatePair_eq_ok h
    exact .inl ⟨rfl, rfl⟩
  | _ => exact .inl ⟨rfl, rfl⟩

/-- Executions are added, given a status, and purged. -/
theorem executions_cases (h : Changes call m next) :
    (next.executions = m.executions ∧ next.lastExecution = m.lastExecution) ∨
      (∃ e, e.id.number = m.lastExecution + 1 ∧ next.executions = m.executions ++ [e] ∧
        next.lastExecution = e.id.number) ∨
      (∃ id status f, call.executionStatus? = some (id, status) ∧
        next.executions = changeRow JobExecution.id id f m.executions ∧
        next.lastExecution = m.lastExecution ∧
        ∀ e, (f e).id = e.id ∧ (f e).instanceId = e.instanceId ∧ (f e).status = status) ∨
      ∃ tag, call = .purge tag ∧ next = (m.purge tag).2 := by
  cases h with
  | createExecution hi hid => exact .inr (.inl ⟨_, nextId_eq_ok_iff.mp hid, rfl, rfl⟩)
  | markStarted he =>
    exact .inr (.inr (.inl ⟨_, _, _, rfl, rfl, rfl, fun _ => ⟨rfl, rfl, rfl⟩⟩))
  | setExecutionStatus he =>
    exact .inr (.inr (.inl ⟨_, _, _, rfl, rfl, rfl, fun _ => ⟨rfl, rfl, rfl⟩⟩))
  | finalizeExecution he =>
    exact .inr (.inr (.inl ⟨_, _, _, rfl, rfl, rfl, fun _ => ⟨rfl, rfl, rfl⟩⟩))
  | purge => exact .inr (.inr (.inr ⟨_, rfl, rfl⟩))
  | createPair hname h =>
    obtain rfl := createPair_eq_ok h
    exact .inl ⟨rfl, rfl⟩
  | updatePair h =>
    obtain rfl := updatePair_eq_ok h
    exact .inl ⟨rfl, rfl⟩
  | _ => exact .inl ⟨rfl, rfl⟩

/-- Step executions are added, changed while their executions are on their way, and purged. -/
theorem steps_cases (h : Changes call m next) :
    (next.steps = m.steps ∧ next.lastStep = m.lastStep) ∨
      (∃ s, s.id.number = m.lastStep + 1 ∧ next.steps = m.steps ++ [s] ∧
        next.lastStep = s.id.number) ∨
      (∃ id update s owner, call = .updateStep id update ∧ m.step? id = some s ∧
        m.execution? s.executionId = some owner ∧ owner.status.isTerminal = false ∧
        next.steps = changeRow StepExecution.id id update.apply m.steps ∧
        next.lastStep = m.lastStep) ∨
      ∃ tag, call = .purge tag ∧ next = (m.purge tag).2 := by
  cases h with
  | createStep hname he hid => exact .inr (.inl ⟨_, nextId_eq_ok_iff.mp hid, rfl, rfl⟩)
  | updateStep hs howner hopen =>
    exact .inr (.inr (.inl ⟨_, _, _, _, rfl, hs, howner, hopen, rfl, rfl⟩))
  | purge => exact .inr (.inr (.inr ⟨_, rfl, rfl⟩))
  | createPair hname h =>
    obtain rfl := createPair_eq_ok h
    exact .inl ⟨rfl, rfl⟩
  | updatePair h =>
    obtain rfl := updatePair_eq_ok h
    exact .inl ⟨rfl, rfl⟩
  | _ => exact .inl ⟨rfl, rfl⟩

/-- Status records of instances are added where there is none, replaced, and purged. -/
theorem jobStatuses_cases (h : Changes call m next) :
    next.jobStatuses = m.jobStatuses ∨
      (∃ id, (m.instance? id).isSome ∧ m.jobStatus? id = none ∧
        next.jobStatuses = m.jobStatuses ++ [JobStatus.fresh id]) ∨
      (∃ status, call = .updateJobStatus status ∧
        next.jobStatuses =
          changeRow JobStatus.instanceId status.instanceId (fun _ => status) m.jobStatuses) ∨
      ∃ tag, call = .purge tag ∧ next = (m.purge tag).2 := by
  cases h with
  | createJobStatus hi hnew => exact .inr (.inl ⟨_, Option.isSome_of_mem hi, hnew, rfl⟩)
  | updateJobStatus hold => exact .inr (.inr (.inl ⟨_, rfl, rfl⟩))
  | purge => exact .inr (.inr (.inr ⟨_, rfl, rfl⟩))
  | createPair hname h =>
    obtain rfl := createPair_eq_ok h
    exact .inl rfl
  | updatePair h =>
    obtain rfl := updatePair_eq_ok h
    exact .inl rfl
  | _ => exact .inl rfl

/-- Status records of steps are added where there is none, replaced as a whole or counted one start
further, and purged. -/
theorem stepStatuses_cases (h : Changes call m next) :
    next.stepStatuses = m.stepStatuses ∨
      (∃ id, call = .createStepStatus id ∧ (m.step? id).isSome ∧ m.stepStatus? id = none ∧
        next.stepStatuses = m.stepStatuses ++ [StepStatus.fresh id]) ∨
      (∃ status old : StepStatus, m.stepStatus? status.statusId = some old ∧
        (call = .updateStepStatus status ∨ status.status = old.status) ∧
        next.stepStatuses =
          changeRow StepStatus.statusId status.statusId (fun _ => status) m.stepStatuses) ∨
      ∃ tag, call = .purge tag ∧ next = (m.purge tag).2 := by
  cases h with
  | createStepStatus hs hnew => exact .inr (.inl ⟨_, rfl, Option.isSome_of_mem hs, hnew, rfl⟩)
  | updateStepStatus hold => exact .inr (.inr (.inl ⟨_, _, hold, .inl rfl, rfl⟩))
  | incrementStartCount hold hroom =>
    rename_i id old
    have hid : old.statusId = id := key_of_find? StepStatus.statusId hold
    refine .inr (.inr (.inl ⟨{ old with startCount := old.startCount + 1 }, old, ?_, .inr rfl, rfl⟩))
    rw [← hid] at hold
    exact hold
  | purge => exact .inr (.inr (.inr ⟨_, rfl, rfl⟩))
  | createPair hname h =>
    obtain rfl := createPair_eq_ok h
    exact .inl rfl
  | updatePair h =>
    obtain rfl := updatePair_eq_ok h
    exact .inl rfl
  | _ => exact .inl rfl

end Changes

end Memory

end JobLedger
