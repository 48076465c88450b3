import JobLedger.Proofs.Memory.Keys

/-!
# Consistency of a ledger in memory

What can be said of the tables of a ledger in memory whatever was done to it before: where rows are
found, how far they are numbered, whom they belong to, and that every restart token has its
counterpart. None of the calls can find the tables damaged then. Tables with keys apart from their
rows hold the same rows, each under its own key.
-/

namespace JobLedger

open JobLedger.Action

namespace Memory

/-- The identifiers of rows are numbers from one to the last one given out. -/
def Numbered {ρ : Type} {entity : Entity} (key : ρ → Id entity) (last : Nat) (rows : List ρ) : Prop :=
  ∀ row ∈ rows, 1 ≤ (key row).number ∧ (key row).number ≤ last

/-- The tables of a ledger are consistent with themselves and with each other. -/
structure Consistent (m : Memory) : Prop where
  /-- An instance is found under its own identifier, and under no other. -/
  instance?_iff : ∀ id i, m.instance? id = some i ↔ i ∈ m.instances ∧ i.id = id
  execution?_iff : ∀ id e, m.execution? id = some e ↔ e ∈ m.executions ∧ e.id = id
  step?_iff : ∀ id s, m.step? id = some s ↔ s ∈ m.steps ∧ s.id = id
  jobStatus?_iff : ∀ id status,
    m.jobStatus? id = some status ↔ status ∈ m.jobStatuses ∧ status.instanceId = id
  stepStatus?_iff : ∀ id status,
    m.stepStatus? id = some status ↔ status ∈ m.stepStatuses ∧ status.statusId = id
  instances_numbered : Numbered JobInstance.id m.lastInstance m.instances
  executions_numbered : Numbered JobExecution.id m.lastExecution m.executions
  steps_numbered : Numbered StepExecution.id m.lastStep m.steps
  jobStatuses_numbered : Numbered JobStatus.instanceId m.lastInstance m.jobStatuses
  stepStatuses_numbered : Numbered StepStatus.statusId m.lastStep m.stepStatuses
  /-- The instance of an execution is there and gives it its name. -/
  execution_owner : ∀ e ∈ m.executions, ∃ i, m.instance? e.instanceId = some i ∧ e.jobName = i.name
  step_owner : ∀ s ∈ m.steps, ∃ e, m.execution? s.executionId = some e
  jobStatus_owner : ∀ status ∈ m.jobStatuses, ∃ i, m.instance? status.instanceId = some i
  stepStatus_owner : ∀ status ∈ m.stepStatuses, ∃ s, m.step? status.statusId = some s
  stepName_proper : ∀ s ∈ m.steps, s.stepName ≠ "" ∧ s.stepName.utf8ByteSize ≤ stepNameLimit
  /-- Restart tokens are kept under keys, each once. -/
  checkpoint_key : ∀ row ∈ m.checkpoints, ∃ key : CheckpointKey, row.1 = key.encode
  checkpoints_nodup : (m.checkpoints.map Prod.fst).Nodup
  /-- The reader of a step has a token exactly if the writer has one. -/
  checkpoint_pair : ∀ id step,
    (m.token? (.ofPair id step .reader)).isSome ↔ (m.token? (.ofPair id step .writer)).isSome

/-- Numbers start from one, so that only the last one bounds them. -/
theorem numbered_of_le {ρ : Type} {entity : Entity} {key : ρ → Id entity} {last : Nat}
    {rows : List ρ} (h : ∀ row ∈ rows, (key row).number ≤ last) : Numbered key last rows :=
  fun row hrow => ⟨(key row).pos, h row hrow⟩

theorem proper_of_stepNameFault? {step : String} (h : stepNameFault? step = none) :
    step ≠ "" ∧ step.utf8ByteSize ≤ stepNameLimit := by
  rw [stepNameFault?] at h
  split at h
  · exact nomatch h
  · next hempty =>
    split at h
    · exact nomatch h
    · next hlong =>
      refine ⟨?_, by omega⟩
      rintro rfl
      exact hempty rfl

/-- A well-formed ledger is consistent. -/
theorem WellFormed.consistent {m : Memory} (h : WellFormed m) : Consistent m where
  instance?_iff _ _ := h.instance?_eq_some_iff
  execution?_iff _ _ := h.execution?_eq_some_iff
  step?_iff _ _ := h.step?_eq_some_iff
  jobStatus?_iff _ _ := h.jobStatus?_eq_some_iff
  stepStatus?_iff _ _ := h.stepStatus?_eq_some_iff
  instances_numbered := numbered_of_le h.instance_le
  executions_numbered := numbered_of_le h.execution_le
  steps_numbered := numbered_of_le h.step_le
  jobStatuses_numbered := by
    refine numbered_of_le fun status hstatus => ?_
    obtain ⟨i, hi, hid⟩ := h.jobStatus_owner status hstatus
    rw [← hid]
    exact h.instance_le i hi
  stepStatuses_numbered := by
    refine numbered_of_le fun status hstatus => ?_
    obtain ⟨s, hs, hid⟩ := h.stepStatus_owner status hstatus
    rw [← hid]
    exact h.step_le s hs
  execution_owner e he := by
    obtain ⟨i, hi, hname⟩ := h.exists_instance he
    exact ⟨i, hi, hname.symm⟩
  step_owner _ hs := h.exists_execution hs
  jobStatus_owner status hstatus := by
    obtain ⟨i, hi, hid⟩ := h.jobStatus_owner status hstatus
    exact ⟨i, h.instance?_eq_some_iff.mpr ⟨hi, hid⟩⟩
  stepStatus_owner status hstatus := by
    obtain ⟨s, hs, hid⟩ := h.stepStatus_owner status hstatus
    exact ⟨s, h.step?_eq_some_iff.mpr ⟨hs, hid⟩⟩
  stepName_proper s hs := proper_of_stepNameFault? (h.stepName_proper s hs)
  checkpoint_key row hrow := by
    obtain ⟨entries, hpairs⟩ := h.checkpoints_paired
    exact hpairs.exists_key hrow
  checkpoints_nodup := by
    obtain ⟨entries, hpairs⟩ := h.checkpoints_paired
    exact hpairs.nodup_keys
  checkpoint_pair id step := by
    obtain ⟨entries, hpairs⟩ := h.checkpoints_paired
    rw [hpairs.token? (id, step), hpairs.token? (id, step), Option.isSome_map, Option.isSome_map]

/-- Whatever operations a ledger in memory has seen, its tables are consistent, and no call on it
can find them damaged. Tables with keys apart that have seen the same hold the same rows, each under
its own key, and answer alike. -/
theorem consistent_of_reached (operations : List Operation) :
    let m := Operation.run empty operations
    let c := Operation.run Cabinet.empty operations
    Consistent m ∧
      (∀ call cause, (LedgerStore.perform call m).answer ≠ .error ⟨.decodeFailure, cause⟩) ∧
      Cabinet.Files c m ∧ Cabinet.OwnKeys c ∧
      ∀ operation : Operation, (operation.perform c).answer = (operation.perform m).answer := by
  have hwell := wellFormed_reached operations
  refine ⟨hwell.consistent, fun call cause hanswer => ?_, Cabinet.files_reached operations⟩
  exact (answers_perform hwell call).kind_ne _ hanswer rfl

end Memory

end JobLedger
