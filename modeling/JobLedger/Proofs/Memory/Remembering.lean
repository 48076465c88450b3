import JobLedger.Proofs.Memory.Numbering
import JobLedger.Proofs.Memory.Owners

/-!
# History that is kept

What the log of a ledger tells of its history is what the tables hold: every row is as it was created
in what is settled then, an execution is as it was last changed in the rest, and what was created is
there until the tag of its instance is purged.
-/

namespace JobLedger.Memory

/-- Instances are as they were created, and there until they are purged. -/
structure InstancesKept (m : Memory) (log : CallLog) : Prop where
  made : ∀ i ∈ m.instances, i ∈ log.instances
  kept : ∀ i ∈ log.instances, i ∈ m.instances ∨ log.PurgedSince i

/-- Executions are what was done to them, and there as long as their instances are. -/
structure ExecutionsKept (m : Memory) (log : CallLog) : Prop where
  made : ∀ e ∈ m.executions, e.start ∈ log.executions
  follows : ∀ e ∈ m.executions, e.FollowsFrom (log.changesOf e.id)
  /-- Nothing was done to an execution before it was created. -/
  unchanged : ∀ id : ExecutionId, m.lastExecution < id.number → log.changesOf id = []
  kept : ∀ start ∈ log.executions, (∃ i ∈ m.instances, i.id = start.instanceId) →
    ∃ e ∈ m.executions, e.id = start.id
  owner_known : ∀ start ∈ log.executions, start.instanceId.number ≤ m.lastInstance

/-- Step executions are as they were created in what is settled then, and there as long as their
executions are. -/
structure StepsKept (m : Memory) (log : CallLog) : Prop where
  made : ∀ s ∈ m.steps, s.start ∈ log.steps
  kept : ∀ start ∈ log.steps, (∃ e ∈ m.executions, e.id = start.executionId) →
    ∃ s ∈ m.steps, s.id = start.id
  owner_known : ∀ start ∈ log.steps, start.executionId.number ≤ m.lastExecution

variable {m next : Memory} {log : CallLog} {success : Success} {tag : String}

namespace InstancesKept

variable (h : m.InstancesKept log)

include h

/-- A call that creates no instance and leaves them is remembered. -/
theorem spared (hmade : success.instance? = none) (hrows : next.instances = m.instances) :
    next.InstancesKept (log ++ [success]) := by
  refine ⟨?_, ?_⟩ <;> rw [CallLog.instances_of_none hmade, hrows]
  · exact h.made
  · exact fun i hi => (h.kept i hi).imp_right fun hpurged => hpurged.append _

/-- A call that creates an instance is remembered. -/
theorem added {i : JobInstance} (hmade : success.instance? = some i)
    (hrows : next.instances = m.instances ++ [i]) : next.InstancesKept (log ++ [success]) := by
  refine ⟨?_, ?_⟩ <;> rw [CallLog.instances_of_some hmade, hrows, List.forall_mem_append,
    List.forall_mem_singleton]
  · exact ⟨fun j hj => List.mem_append_left _ (h.made j hj), List.mem_concat_self⟩
  · refine ⟨fun j hj => ?_, .inl List.mem_concat_self⟩
    exact (h.kept j hj).imp (List.mem_append_left _) fun hpurged => hpurged.append _

/-- A purge of instances is remembered. -/
theorem purged {summary : PurgeSummary} :
    (m.remaining tag).InstancesKept (log ++ [⟨.purge tag, summary⟩]) := by
  refine ⟨?_, ?_⟩ <;> rw [CallLog.instances_purge]
  · exact fun i hi => h.made i (List.mem_filter.mp hi).1
  · intro i hi
    by_cases htag : i.appTag = tag
    · subst htag
      exact .inr (CallLog.purgedSince_purge hi)
    · exact (h.kept i hi).imp (fun hmem => List.mem_filter.mpr ⟨hmem, by simpa using htag⟩)
        fun hpurged => hpurged.append _

end InstancesKept

namespace ExecutionsKept

variable (h : m.ExecutionsKept log)

include h

/-- A call that creates and changes no execution is remembered, as no instance comes back. -/
theorem spared (hmade : success.execution? = none) (hchange : success.change? = none)
    (hrows : next.executions = m.executions) (hlast : next.lastExecution = m.lastExecution)
    (howner : ∀ id : InstanceId, id.number ≤ m.lastInstance → (∃ i ∈ next.instances, i.id = id) →
      ∃ i ∈ m.instances, i.id = id)
    (hle : m.lastInstance ≤ next.lastInstance) : next.ExecutionsKept (log ++ [success]) where
  made := by
    rw [CallLog.executions_of_none hmade, hrows]
    exact h.made
  follows := by
    rw [hrows]
    intro e he
    rw [CallLog.changesOf_of_none hchange]
    exact h.follows e he
  unchanged := by
    rw [hlast]
    intro id hid
    rw [CallLog.changesOf_of_none hchange]
    exact h.unchanged id hid
  kept := by
    rw [CallLog.executions_of_none hmade, hrows]
    exact fun start hstart hi => h.kept start hstart (howner _ (h.owner_known start hstart) hi)
  owner_known := by
    rw [CallLog.executions_of_none hmade]
    exact fun start hstart => Nat.le_trans (h.owner_known start hstart) hle

/-- A call that creates an execution is remembered, with the first change of it. -/
theorem added (hformed : m.WellFormed) {e : JobExecution} {status : BatchStatus} {time : Timestamp}
    (hid : e.id.number = m.lastExecution + 1) (hmade : success.execution? = some e.start)
    (hchange : success.change? = some (e.id, .created status time))
    (hfollows : e.FollowsFrom [.created status time])
    (howner : e.instanceId.number ≤ m.lastInstance) :
    ExecutionsKept { m with lastExecution := e.id.number, executions := m.executions ++ [e] }
      (log ++ [success]) where
  made := by
    rw [CallLog.executions_of_some hmade, List.forall_mem_append, List.forall_mem_singleton]
    exact ⟨fun old hold => List.mem_append_left _ (h.made old hold), List.mem_concat_self⟩
  follows := by
    rw [List.forall_mem_append, List.forall_mem_singleton]
    constructor
    · intro old hold
      have hle := hformed.execution_le old hold
      have hne : e.id ≠ old.id := fun heq => by rw [heq] at hid; omega
      rw [CallLog.changesOf_of_some hchange, if_neg hne, List.append_nil]
      exact h.follows old hold
    · rw [CallLog.changesOf_of_some hchange, if_pos rfl, h.unchanged e.id (by omega)]
      exact hfollows
  unchanged id hlt := by
    have hlt : e.id.number < id.number := hlt
    have hne : e.id ≠ id := fun heq => by rw [heq] at hlt; omega
    rw [CallLog.changesOf_of_some hchange, if_neg hne, List.append_nil]
    exact h.unchanged id (by omega)
  kept := by
    rw [CallLog.executions_of_some hmade, List.forall_mem_append, List.forall_mem_singleton]
    constructor
    · intro start hstart hi
      obtain ⟨old, hold, hsame⟩ := h.kept start hstart hi
      exact ⟨old, List.mem_append_left _ hold, hsame⟩
    · exact fun _ => ⟨e, List.mem_concat_self, rfl⟩
  owner_known := by
    rw [CallLog.executions_of_some hmade, List.forall_mem_append, List.forall_mem_singleton]
    exact ⟨h.owner_known, howner⟩

/-- A call that changes an execution is remembered as its last change. -/
theorem changed (hformed : m.WellFormed) {id : ExecutionId} {change : ExecutionChange}
    {e : JobExecution} (he : m.execution? id = some e) (hmade : success.execution? = none)
    (hchange : success.change? = some (id, change))
    (hlater : ∀ status time, change ≠ .created status time) :
    (m.modifyExecution id change.apply).ExecutionsKept (log ++ [success]) where
  made := by
    rw [CallLog.executions_of_none hmade]
    exact forall_changeRow JobExecution.id h.made fun old _ hold => by rwa [change.start_apply]
  follows := by
    intro new hnew
    obtain ⟨old, hold, rfl⟩ := List.mem_map.mp hnew
    have hfollows := h.follows old hold
    rw [CallLog.changesOf_of_some hchange]
    split
    · next heq =>
      have hid : (change.apply old).id = old.id := congrArg ExecutionStart.id (change.start_apply old)
      rw [hid, if_pos heq.symm]
      exact hfollows.append hlater
    · next hne =>
      rw [if_neg (Ne.symm hne), List.append_nil]
      exact hfollows
  unchanged other hlt := by
    obtain ⟨hmem, rfl⟩ := hformed.execution?_eq_some_iff.mp he
    have hle := hformed.execution_le e hmem
    have hlt : m.lastExecution < other.number := hlt
    have hne : e.id ≠ other := fun heq => by rw [heq] at hle; omega
    rw [CallLog.changesOf_of_some hchange, if_neg hne, List.append_nil]
    exact h.unchanged other hlt
  kept := by
    rw [CallLog.executions_of_none hmade]
    intro start hstart hi
    exact exists_changeRow (h.kept start hstart hi) fun old _ hold =>
      (congrArg ExecutionStart.id (change.start_apply old)).trans hold
  owner_known := by
    rw [CallLog.executions_of_none hmade]
    exact h.owner_known

/-- A purge of executions is remembered by their instances. -/
theorem purged (hformed : m.WellFormed) (hnumbers : m.Numbers log) {summary : PurgeSummary} :
    (m.remaining tag).ExecutionsKept (log ++ [⟨.purge tag, summary⟩]) where
  made := by
    rw [CallLog.executions_purge]
    exact fun e he => h.made e (List.mem_filter.mp he).1
  follows e he := by
    rw [CallLog.changesOf_purge]
    exact h.follows e (List.mem_filter.mp he).1
  unchanged id hlt := by
    rw [CallLog.changesOf_purge]
    exact h.unchanged id hlt
  kept := by
    rw [CallLog.executions_purge]
    rintro start hstart ⟨i, hi, hid⟩
    obtain ⟨e, he, hsame⟩ := h.kept start hstart ⟨i, (List.mem_filter.mp hi).1, hid⟩
    -- It is the execution that was created with the instance that stays.
    have hstart' := hnumbers.executions.sorted.distinct.eq_of_key_eq (h.made e he) hstart hsame
    have hof : e.instanceId = i.id := (congrArg ExecutionStart.instanceId hstart').trans hid.symm
    refine ⟨e, List.mem_filter.mpr ⟨he, ?_⟩, hsame⟩
    rw [Bool.not_eq_true', ← Bool.not_eq_true, contains_instancesOf_iff, hof]
    exact hformed.not_hasTag_of_mem_remaining hi
  owner_known := by
    rw [CallLog.executions_purge]
    exact h.owner_known

end ExecutionsKept

namespace StepsKept

variable (h : m.StepsKept log)

include h

/-- A call that creates no step execution is remembered, as no execution comes back. -/
theorem spared (hmade : success.step? = none) (hrows : next.steps = m.steps)
    (howner : ∀ id : ExecutionId, id.number ≤ m.lastExecution →
      (∃ e ∈ next.executions, e.id = id) → ∃ e ∈ m.executions, e.id = id)
    (hle : m.lastExecution ≤ next.lastExecution) : next.StepsKept (log ++ [success]) where
  made := by
    rw [CallLog.steps_of_none hmade, hrows]
    exact h.made
  kept := by
    rw [CallLog.steps_of_none hmade, hrows]
    exact fun start hstart he => h.kept start hstart (howner _ (h.owner_known start hstart) he)
  owner_known := by
    rw [CallLog.steps_of_none hmade]
    exact fun start hstart => Nat.le_trans (h.owner_known start hstart) hle

/-- A call that creates a step execution is remembered. -/
theorem added {s : StepExecution} (hmade : success.step? = some s.start)
    (howner : s.executionId.number ≤ m.lastExecution) :
    StepsKept { m with lastStep := s.id.number, steps := m.steps ++ [s] } (log ++ [success]) where
  made := by
    rw [CallLog.steps_of_some hmade, List.forall_mem_append, List.forall_mem_singleton]
    exact ⟨fun old hold => List.mem_append_left _ (h.made old hold), List.mem_concat_self⟩
  kept := by
    rw [CallLog.steps_of_some hmade, List.forall_mem_append, List.forall_mem_singleton]
    constructor
    · intro start hstart he
      obtain ⟨old, hold, hsame⟩ := h.kept start hstart he
      exact ⟨old, List.mem_append_left _ hold, hsame⟩
    · exact fun _ => ⟨s, List.mem_concat_self, rfl⟩
  owner_known := by
    rw [CallLog.steps_of_some hmade, List.forall_mem_append, List.forall_mem_singleton]
    exact ⟨h.owner_known, howner⟩

/-- A call that changes a step execution leaves what is remembered of its start. -/
theorem changed {id : StepId} {update : StepUpdate} (hmade : success.step? = none) :
    (m.modifyStep id update.apply).StepsKept (log ++ [success]) where
  made := by
    rw [CallLog.steps_of_none hmade]
    exact forall_changeRow StepExecution.id h.made fun _ _ hold => hold
  kept := by
    rw [CallLog.steps_of_none hmade]
    exact fun start hstart he => exists_changeRow (h.kept start hstart he) fun _ _ hold => hold
  owner_known := by
    rw [CallLog.steps_of_none hmade]
    exact h.owner_known

/-- A purge of step executions is remembered by their executions. -/
theorem purged (hformed : m.WellFormed) (hnumbers : m.Numbers log) {summary : PurgeSummary} :
    (m.remaining tag).StepsKept (log ++ [⟨.purge tag, summary⟩]) where
  made := by
    rw [CallLog.steps_purge]
    exact fun s hs => h.made s (List.mem_filter.mp hs).1
  kept := by
    rw [CallLog.steps_purge]
    rintro start hstart ⟨e, he, hid⟩
    obtain ⟨hmem, hstays⟩ := List.mem_filter.mp he
    obtain ⟨s, hs, hsame⟩ := h.kept start hstart ⟨e, hmem, hid⟩
    have hstart' := hnumbers.steps.sorted.distinct.eq_of_key_eq (h.made s hs) hstart hsame
    have hof : s.executionId = e.id := (congrArg StepStart.executionId hstart').trans hid.symm
    refine ⟨s, List.mem_filter.mpr ⟨hs, ?_⟩, hsame⟩
    rwa [hof, executionsOfTag, hformed.executions_sorted.distinct.contains_map_filter hmem]
  owner_known := by
    rw [CallLog.steps_purge]
    exact h.owner_known

end StepsKept

/-- What a log tells of the history is what the tables of a ledger hold. -/
structure Remembers (m : Memory) (log : CallLog) : Prop where
  numbers : m.Numbers log
  instances : m.InstancesKept log
  executions : m.ExecutionsKept log
  steps : m.StepsKept log

/-- Of an empty ledger there is nothing to remember. -/
theorem remembers_empty : empty.Remembers [] where
  numbers := .empty
  instances.made _ h := nomatch h
  instances.kept _ h := nomatch h
  executions.made _ h := nomatch h
  executions.follows _ h := nomatch h
  executions.unchanged _ _ := rfl
  executions.kept _ h := nomatch h
  executions.owner_known _ h := nomatch h
  steps.made _ h := nomatch h
  steps.kept _ h := nomatch h
  steps.owner_known _ h := nomatch h

/-- An execution that is changed stays with its number. -/
theorem exists_modifyExecution_iff {id other : ExecutionId} (change : ExecutionChange) :
    (∃ e ∈ (m.modifyExecution id change.apply).executions, e.id = other) ↔
      ∃ e ∈ m.executions, e.id = other :=
  exists_changeRow_iff fun e => by
    rw [show (change.apply e).id = e.id from congrArg ExecutionStart.id (change.start_apply e)]

/-- What is done to an execution is told by the success. -/
theorem Remembers.changeExecution (h : m.Remembers log) (hformed : m.WellFormed)
    {id : ExecutionId} {change : ExecutionChange} {e : JobExecution} (he : m.execution? id = some e)
    (hstep : HistoryStep m success (m.modifyExecution id change.apply))
    (hinstance : success.instance? = none) (hexecution : success.execution? = none)
    (hstepNone : success.step? = none) (hchange : success.change? = some (id, change))
    (hlater : ∀ status time, change ≠ .created status time) :
    (m.modifyExecution id change.apply).Remembers (log ++ [success]) where
  numbers := h.numbers.step hstep
  instances := h.instances.spared hinstance rfl
  executions := h.executions.changed hformed he hexecution hchange hlater
  steps := h.steps.spared hstepNone rfl (fun _ _ => (exists_modifyExecution_iff change).mp)
    (Nat.le_refl _)

/-- A success does to the tables what it tells of them. -/
theorem Remembers.step (h : m.Remembers log) (hformed : m.WellFormed)
    (hstep : HistoryStep m success next) : next.Remembers (log ++ [success]) := by
  have hnumbers := h.numbers.step hstep
  obtain ⟨-, hinstances, hexecutions, hsteps⟩ := id h
  cases hstep with
  | @addInstance _ i hmade hid =>
    have hi : success.instance? = some i := by rcases hmade with rfl | ⟨name, rfl⟩ <;> rfl
    have he : success.execution? = none := by rcases hmade with rfl | ⟨name, rfl⟩ <;> rfl
    have hc : success.change? = none := by rcases hmade with rfl | ⟨name, rfl⟩ <;> rfl
    have hs : success.step? = none := by rcases hmade with rfl | ⟨name, rfl⟩ <;> rfl
    exact {
      numbers := hnumbers
      instances := hinstances.added hi rfl
      executions := hexecutions.spared he hc rfl rfl
        (fun _ hknown => (exists_append_iff hid hknown fun _ => id).mp)
        (Nat.le_trans (Nat.le_succ _) (Nat.le_of_eq hid.symm))
      steps := hsteps.spared hs rfl (fun _ _ => id) (Nat.le_refl _) }
  | @addExecution owner i execution parameters status time hi hid =>
    have hcreated : JobExecution.FollowsFrom
        ⟨execution, owner, i.name, time, none, none, time, status, none, parameters⟩
        [.created status time] := ⟨rfl, rfl, rfl, rfl⟩
    have hknown : owner.number ≤ m.lastInstance := by
      obtain ⟨hmem, rfl⟩ := hformed.instance?_eq_some_iff.mp hi
      exact hformed.instance_le i hmem
    exact {
      numbers := hnumbers
      instances := hinstances.spared rfl rfl
      executions := hexecutions.added hformed hid rfl rfl hcreated hknown
      steps := hsteps.spared rfl rfl
        (fun _ hknown => (exists_append_iff hid hknown fun _ => id).mp)
        (Nat.le_trans (Nat.le_succ _) (Nat.le_of_eq hid.symm)) }
  | markStarted he | setExecutionStatus he | finalizeExecution he =>
    exact h.changeExecution hformed he (by constructor; exact he) rfl rfl rfl rfl nofun
  | @addStep owner e stepId step metrics time he hid =>
    have hknown : owner.number ≤ m.lastExecution := by
      obtain ⟨hmem, rfl⟩ := hformed.execution?_eq_some_iff.mp he
      exact hformed.execution_le e hmem
    exact {
      numbers := hnumbers
      instances := hinstances.spared rfl rfl
      executions := hexecutions.spared rfl rfl rfl rfl (fun _ _ => id) (Nat.le_refl _)
      steps := hsteps.added
        (s := ⟨stepId, owner, step, .starting, none, metrics, time, none, none⟩) rfl hknown }
  | updateStep =>
    exact {
      numbers := hnumbers
      instances := hinstances.spared rfl rfl
      executions := hexecutions.spared rfl rfl rfl rfl (fun _ _ => id) (Nat.le_refl _)
      steps := hsteps.changed rfl }
  | purge => exact ⟨hnumbers, hinstances.purged, hexecutions.purged hformed h.numbers,
      hsteps.purged hformed h.numbers⟩
  | quiet hquiet =>
    exact {
      numbers := hnumbers
      instances := hinstances.spared hquiet.instance_none rfl
      executions := hexecutions.spared hquiet.execution_none hquiet.change_none rfl rfl
        (fun _ _ => id) (Nat.le_refl _)
      steps := hsteps.spared hquiet.step_none rfl (fun _ _ => id) (Nat.le_refl _) }

end JobLedger.Memory
