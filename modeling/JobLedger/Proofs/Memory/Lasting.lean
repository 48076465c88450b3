import JobLedger.Proofs.Memory.Tables

/-!
# What lasts in a ledger

A number that was given out and has no row any more never has one again. The row of a step execution
whose execution has ended stays as it is until it is purged, unless a call gives the execution a
status in which it is on its way.
-/

namespace JobLedger.Memory

/-- The number of an instance was given out, and there is no instance under it. -/
def InstanceGone (m : Memory) (id : InstanceId) : Prop :=
  id.number ≤ m.lastInstance ∧ ∀ i ∈ m.instances, i.id ≠ id

/-- The number of a step execution was given out, and there is none under it. -/
def StepGone (m : Memory) (id : StepId) : Prop :=
  id.number ≤ m.lastStep ∧ ∀ s ∈ m.steps, s.id ≠ id

/-- The row of a step execution is there, and its execution has ended. -/
def HasEndedStep (m : Memory) (row : StepExecution) : Prop :=
  row ∈ m.steps ∧ ∃ e ∈ m.executions, e.id = row.executionId ∧ e.status.isTerminal = true

variable {m next : Memory} {call : Call}

/-- A step execution that is gone is not found. -/
theorem StepGone.step?_eq_none {id : StepId} (h : m.StepGone id) : m.step? id = none :=
  find?_key_eq_none_iff.mpr h.2

namespace Changes

variable (hformed : m.WellFormed) (h : Changes call m next)

include hformed h

/-- An instance that is gone stays gone. -/
theorem instanceGone {id : InstanceId} (hgone : m.InstanceGone id) : next.InstanceGone id := by
  obtain ⟨hle, hnone⟩ := hgone
  rw [InstanceGone]
  rcases h.instances_cases with ⟨hrows, hlast⟩ | ⟨i, -, hid, hrows, hlast⟩ | ⟨tag, -, rfl⟩
  · rw [hrows, hlast]
    exact ⟨hle, hnone⟩
  · rw [hrows, hlast, List.forall_mem_append, List.forall_mem_singleton]
    refine ⟨by omega, hnone, ?_⟩
    rintro rfl
    omega
  · rw [hformed.purge_eq]
    exact ⟨hle, fun i hi => hnone i (List.mem_filter.mp hi).1⟩

/-- A step execution that is gone stays gone. -/
theorem stepGone {id : StepId} (hgone : m.StepGone id) : next.StepGone id := by
  obtain ⟨hle, hnone⟩ := hgone
  rw [StepGone]
  rcases h.steps_cases with ⟨hrows, hlast⟩ | ⟨s, hid, hrows, hlast⟩ |
    ⟨changed, update, s, owner, -, -, -, -, hrows, hlast⟩ | ⟨tag, -, rfl⟩
  · rw [hrows, hlast]
    exact ⟨hle, hnone⟩
  · rw [hrows, hlast, List.forall_mem_append, List.forall_mem_singleton]
    refine ⟨by omega, hnone, ?_⟩
    rintro rfl
    omega
  · rw [hrows, hlast]
    exact ⟨hle, forall_changeRow StepExecution.id hnone fun _ _ hne => hne⟩
  · rw [hformed.purge_eq]
    exact ⟨hle, fun s hs => hnone s (List.mem_filter.mp hs).1⟩

/-- The row of a step execution stays as it is while its execution has ended. -/
theorem mem_steps {row : StepExecution} (hrow : m.HasEndedStep row)
    (hpurge : ∀ tag, call ≠ .purge tag) : row ∈ next.steps := by
  obtain ⟨hmem, e, he, hid, hended⟩ := hrow
  rcases h.steps_cases with ⟨hrows, -⟩ | ⟨s, -, hrows, -⟩ |
    ⟨changed, update, s, owner, -, hs, howner, hopen, hrows, -⟩ | ⟨tag, heq, -⟩
  · rwa [hrows]
  · rw [hrows]
    exact List.mem_append_left _ hmem
  · -- The row that is changed belongs to an execution on its way, so it is not this one.
    have hne : row.id ≠ changed := by
      intro heq
      obtain ⟨hmem', hid'⟩ := hformed.step?_eq_some_iff.mp hs
      have hsame : row = s :=
        hformed.steps_sorted.distinct.eq_of_key_eq hmem hmem' (heq.trans hid'.symm)
      rw [← hsame, hformed.execution?_eq_some_iff.mpr ⟨he, hid⟩] at howner
      rw [← Option.some.inj howner, hended] at hopen
      exact nomatch hopen
    rw [hrows]
    exact List.mem_map.mpr ⟨row, hmem, if_neg hne⟩
  · exact absurd heq (hpurge tag)

omit hformed in
/-- An execution that has ended stays so, unless a call gives it another status. -/
theorem ended {id : ExecutionId}
    (hended : ∃ e ∈ m.executions, e.id = id ∧ e.status.isTerminal = true)
    (hstatus : ∀ status, call.executionStatus? = some (id, status) → status.isTerminal = true)
    (hpurge : ∀ tag, call ≠ .purge tag) :
    ∃ e ∈ next.executions, e.id = id ∧ e.status.isTerminal = true := by
  rcases h.executions_cases with ⟨hrows, -⟩ | ⟨e, -, hrows, -⟩ |
    ⟨changed, status, f, hcall, hrows, -, hf⟩ | ⟨tag, heq, -⟩
  · rwa [hrows]
  · obtain ⟨e', he', hkept⟩ := hended
    rw [hrows]
    exact ⟨e', List.mem_append_left _ he', hkept⟩
  · rw [hrows]
    refine exists_changeRow hended fun e hchanged hkept => ?_
    obtain ⟨hid, -, hset⟩ := hf e
    have hsame : changed = id := hchanged.symm.trans hkept.1
    rw [hid, hset]
    exact ⟨hkept.1, hstatus status (hsame ▸ hcall)⟩
  · exact absurd heq (hpurge tag)

/-- Unless its execution is started anew or purged, a step execution that has ended stays as it is.
-/
theorem hasEndedStep {row : StepExecution} (hrow : m.HasEndedStep row)
    (hstatus : ∀ status, call.executionStatus? = some (row.executionId, status) →
      status.isTerminal = true)
    (hpurge : ∀ tag, call ≠ .purge tag) : next.HasEndedStep row :=
  ⟨h.mem_steps hformed hrow hpurge, h.ended hrow.2 hstatus hpurge⟩

end Changes

namespace WellFormed

variable (hformed : m.WellFormed)

include hformed

/-- Behind a purge an instance is there or gone. -/
theorem instanceGone_remaining {id : InstanceId} {i : JobInstance} (hi : i ∈ m.instances)
    (hid : i.id = id) (tag : String) :
    i ∈ (m.remaining tag).instances ∨ (m.remaining tag).InstanceGone id := by
  by_cases htag : i.appTag = tag
  · refine .inr ⟨hid ▸ hformed.instance_le i hi, fun j hj heq => ?_⟩
    obtain ⟨hmem, hother⟩ := List.mem_filter.mp hj
    have hsame := hformed.instances_sorted.distinct.eq_of_key_eq hmem hi (heq.trans hid.symm)
    simp [hsame, htag] at hother
  · exact .inl (List.mem_filter.mpr ⟨hi, by simpa using htag⟩)

/-- Behind a purge a step execution is there or gone. -/
theorem stepGone_remaining {row : StepExecution} (hrow : row ∈ m.steps) (tag : String) :
    row ∈ (m.remaining tag).steps ∨ (m.remaining tag).StepGone row.id := by
  by_cases htag : (m.executionsOfTag tag).contains row.executionId = true
  · refine .inr ⟨hformed.step_le row hrow, fun s hs heq => ?_⟩
    obtain ⟨hmem, hother⟩ := List.mem_filter.mp hs
    rw [hformed.steps_sorted.distinct.eq_of_key_eq hmem hrow heq, htag] at hother
    exact nomatch hother
  · rw [Bool.not_eq_true] at htag
    exact .inl (List.mem_filter.mpr ⟨hrow, by rw [htag]; rfl⟩)

/-- A purge takes the row of a step execution away for good, or leaves it with its execution. -/
theorem hasEndedStep_remaining {row : StepExecution} (hrow : m.HasEndedStep row) (tag : String) :
    (m.remaining tag).HasEndedStep row ∨ (m.remaining tag).StepGone row.id := by
  obtain ⟨hmem, e, he, hid, hended⟩ := hrow
  refine (hformed.stepGone_remaining hmem tag).imp_left fun hstays => ⟨hstays, ?_⟩
  obtain ⟨e', he', hid'⟩ := (hformed.remaining tag).step_owner row hstays
  have hsame : e' = e := hformed.executions_sorted.distinct.eq_of_key_eq
    (List.mem_filter.mp he').1 he (hid'.trans hid.symm)
  exact ⟨e', he', hid', hsame ▸ hended⟩

end WellFormed

end JobLedger.Memory
