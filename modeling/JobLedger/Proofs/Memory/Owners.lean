import JobLedger.Proofs.Memory.Lasting

/-!
# Whom executions and step executions belong to

An execution belongs to an instance, and through its execution a step execution enters a step of an
instance. No call changes this of a number that was given out; only a purge takes it away, together
with the instance.
-/

namespace JobLedger.Memory

/-- An execution belongs to an instance. -/
def OwnsExecution (m : Memory) (id : InstanceId) (execution : ExecutionId) : Prop :=
  ∃ e ∈ m.executions, e.id = execution ∧ e.instanceId = id

/-- A step execution enters a step of an instance. -/
def Enters (m : Memory) (id : InstanceId) (step : String) (entry : StepId) : Prop :=
  ∃ row ∈ m.steps, row.id = entry ∧ row.stepName = step ∧ m.OwnsExecution id row.executionId

variable {m next : Memory} {call : Call} {id : InstanceId} {step : String}

/-- Among rows with another one at the end there is what was there before, unless it is the last
number. -/
theorem exists_append_iff {ρ : Type} {entity : Entity} {key : ρ → Id entity} {rows : List ρ}
    {last : Nat} {k : Id entity} {P : ρ → Prop} {b : ρ} (hb : (key b).number = last + 1)
    (hknown : k.number ≤ last) (hP : ∀ a, P a → key a = k) :
    (∃ a ∈ rows ++ [b], P a) ↔ ∃ a ∈ rows, P a := by
  constructor
  · rintro ⟨a, ha, hPa⟩
    rcases List.mem_append.mp ha with hold | hnew
    · exact ⟨a, hold, hPa⟩
    · have hkey := hP a hPa
      rw [List.mem_singleton.mp hnew] at hkey
      rw [← hkey, hb] at hknown
      omega
  · rintro ⟨a, ha, hPa⟩
    exact ⟨a, List.mem_append_left _ ha, hPa⟩

namespace WellFormed

variable (hformed : m.WellFormed)

include hformed

/-- An instance owns the executions that refer to it. -/
theorem ownsExecution_iff {execution : ExecutionId} :
    m.OwnsExecution id execution ↔ ∃ e, m.execution? execution = some e ∧ e.instanceId = id := by
  simp only [OwnsExecution, hformed.execution?_eq_some_iff, and_assoc]

/-- A step is entered by the step executions of its name, in executions of its instance. -/
theorem enters_iff {entry : StepId} : m.Enters id step entry ↔
    ∃ row e, m.step? entry = some row ∧ row.stepName = step ∧
      m.execution? row.executionId = some e ∧ e.instanceId = id := by
  simp only [Enters, hformed.ownsExecution_iff, hformed.step?_eq_some_iff]
  constructor
  · rintro ⟨row, hrow, hid, hname, e, he, hof⟩
    exact ⟨row, e, ⟨hrow, hid⟩, hname, he, hof⟩
  · rintro ⟨row, e, ⟨hrow, hid⟩, hname, he, hof⟩
    exact ⟨row, hrow, hid, hname, e, he, hof⟩

/-- A step is entered under a number that was given out. -/
theorem step_known {entry : StepId} (h : m.Enters id step entry) : entry.number ≤ m.lastStep := by
  obtain ⟨row, hrow, rfl, -⟩ := h
  exact hformed.step_le row hrow

/-- An execution that belongs to an instance belongs to no other one. -/
theorem ownsExecution_unique {other : InstanceId} {execution : ExecutionId}
    (h : m.OwnsExecution id execution) (h' : m.OwnsExecution other execution) : id = other := by
  obtain ⟨e, he, hid, rfl⟩ := h
  obtain ⟨e', he', hid', rfl⟩ := h'
  rw [hformed.executions_sorted.distinct.eq_of_key_eq he he' (hid.trans hid'.symm)]

/-- The instance of a step execution is there. -/
theorem exists_instance_of_enters {entry : StepId} (h : m.Enters id step entry) :
    ∃ i ∈ m.instances, i.id = id := by
  obtain ⟨row, -, -, -, e, he, -, rfl⟩ := h
  obtain ⟨i, hi, hid, -⟩ := hformed.execution_owner e he
  exact ⟨i, hi, hid⟩

end WellFormed

namespace Changes

variable (h : Changes call m next) (hpurge : ∀ tag, call ≠ .purge tag)

include h hpurge

/-- Whom an execution belongs to stays. -/
theorem ownsExecution_iff {execution : ExecutionId} (hknown : execution.number ≤ m.lastExecution) :
    next.OwnsExecution id execution ↔ m.OwnsExecution id execution := by
  rw [OwnsExecution, OwnsExecution]
  rcases h.executions_cases with ⟨hrows, -⟩ | ⟨e, hid, hrows, -⟩ |
    ⟨changed, status, f, -, hrows, -, hf⟩ | ⟨tag, heq, -⟩
  · rw [hrows]
  · rw [hrows, exists_append_iff hid hknown fun _ hP => hP.1]
  · rw [hrows, exists_changeRow_iff fun e => by rw [(hf e).1, (hf e).2.1]]
  · exact absurd heq (hpurge tag)

/-- Which step of which instance a step execution enters stays. -/
theorem enters_iff (hformed : m.WellFormed) {entry : StepId} (hknown : entry.number ≤ m.lastStep) :
    next.Enters id step entry ↔ m.Enters id step entry := by
  have howner : ∀ row ∈ m.steps,
      (next.OwnsExecution id row.executionId ↔ m.OwnsExecution id row.executionId) := by
    intro row hrow
    obtain ⟨e, he, hid⟩ := hformed.step_owner row hrow
    exact h.ownsExecution_iff hpurge (hid ▸ hformed.execution_le e he)
  have hbefore : m.Enters id step entry ↔
      ∃ row ∈ m.steps, row.id = entry ∧ row.stepName = step ∧ next.OwnsExecution id row.executionId :=
    exists_congr fun row => and_congr_right fun hrow => by rw [howner row hrow]
  rw [hbefore, Enters]
  rcases h.steps_cases with ⟨hrows, -⟩ | ⟨s, hid, hrows, -⟩ |
    ⟨changed, update, s, owner, -, -, -, -, hrows, -⟩ | ⟨tag, heq, -⟩
  · rw [hrows]
  · rw [hrows, exists_append_iff hid hknown fun _ hP => hP.1]
  · rw [hrows]
    exact exists_changeRow_iff fun _ => Iff.rfl
  · exact absurd heq (hpurge tag)

end Changes

/-- A purge of other instances leaves the executions of an instance. -/
theorem ownsExecution_remaining_iff {tag : String} (htag : ¬ m.HasTag tag id) {execution : ExecutionId} :
    (m.remaining tag).OwnsExecution id execution ↔ m.OwnsExecution id execution := by
  refine exists_congr fun e => ?_
  rw [Memory.remaining, List.mem_filter, Bool.not_eq_true', ← Bool.not_eq_true, contains_instancesOf_iff]
  constructor
  · rintro ⟨⟨hmem, -⟩, hid, hof⟩
    exact ⟨hmem, hid, hof⟩
  · rintro ⟨hmem, hid, hof⟩
    exact ⟨⟨hmem, hof ▸ htag⟩, hid, hof⟩

namespace WellFormed

variable (hformed : m.WellFormed) {tag : String}

include hformed

/-- An instance that a purge leaves does not have the tag. -/
theorem not_hasTag_of_mem_remaining {i : JobInstance} (hi : i ∈ (m.remaining tag).instances) :
    ¬ m.HasTag tag i.id := by
  obtain ⟨hmem, hother⟩ := List.mem_filter.mp hi
  rintro ⟨j, hj, hid, htagged⟩
  rw [hformed.instances_sorted.distinct.eq_of_key_eq hj hmem hid] at htagged
  simp [htagged] at hother

/-- A purge of other instances leaves the step executions of an instance. -/
theorem enters_remaining_iff (htag : ¬ m.HasTag tag id) {entry : StepId} :
    (m.remaining tag).Enters id step entry ↔ m.Enters id step entry := by
  simp only [Enters, ownsExecution_remaining_iff htag]
  refine exists_congr fun row => ?_
  rw [Memory.remaining, List.mem_filter, Bool.not_eq_true', ← Bool.not_eq_true, contains_executionsOfTag_iff]
  constructor
  · rintro ⟨⟨hmem, -⟩, hrest⟩
    exact ⟨hmem, hrest⟩
  · rintro ⟨hmem, hid, hname, howner⟩
    refine ⟨⟨hmem, ?_⟩, hid, hname, howner⟩
    rintro ⟨e, he, hof, htagged⟩
    exact htag (hformed.ownsExecution_unique howner ⟨e, he, hof, rfl⟩ ▸ htagged)

/-- A step execution of an instance without a tag does not have the tag. -/
theorem not_stepHasTag_of_enters (htag : ¬ m.HasTag tag id) {entry : StepId}
    (h : m.Enters id step entry) : ¬ m.StepHasTag tag entry := by
  rintro ⟨s, hs, hid, e, he, hof, htagged⟩
  obtain ⟨row, hrow, hid', -, howner⟩ := h
  obtain rfl := hformed.steps_sorted.distinct.eq_of_key_eq hs hrow (hid.trans hid'.symm)
  exact htag (hformed.ownsExecution_unique howner ⟨e, he, hof, rfl⟩ ▸ htagged)

end WellFormed

end JobLedger.Memory
