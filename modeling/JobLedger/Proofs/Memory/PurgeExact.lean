import JobLedger.Proofs.Memory.Calls

/-!
# A purge of a ledger in memory is exact

A purge removes the rows that belong to a tag, through however many tables they do, and counts them.
What belongs to whom is said here without the lists that the purge goes through. A second purge of a
tag finds nothing, and two tags may be purged in either order.
-/

namespace JobLedger

open Text

/-- Exactly the rows with a property are removed from a list, and so many they are. -/
inductive Removes {α : Type} (P : α → Prop) : List α → List α → Nat → Prop where
  | nil : Removes P [] [] 0
  | gone {a : α} {rows rest : List α} {count : Nat} (ha : P a) (h : Removes P rows rest count) :
    Removes P (a :: rows) rest (count + 1)
  | kept {a : α} {rows rest : List α} {count : Nat} (ha : ¬ P a) (h : Removes P rows rest count) :
    Removes P (a :: rows) (a :: rest) count

/-- The keys of rows with a property. -/
theorem contains_map_filter_iff {α κ : Type} [DecidableEq κ] {key : α → κ} {rows : List α}
    {p : α → Bool} {P : α → Prop} (h : ∀ a, p a = true ↔ P a) {k : κ} :
    ((rows.filter p).map key).contains k ↔ ∃ a ∈ rows, key a = k ∧ P a := by
  rw [List.contains_iff_mem, List.mem_map]
  constructor
  · rintro ⟨a, ha, rfl⟩
    obtain ⟨hmem, hp⟩ := List.mem_filter.mp ha
    exact ⟨a, hmem, rfl, (h a).mp hp⟩
  · rintro ⟨a, hmem, rfl, hP⟩
    exact ⟨a, List.mem_filter.mpr ⟨hmem, (h a).mpr hP⟩, rfl⟩

section Removes

variable {α : Type} {P : α → Prop} {p : α → Bool}

/-- A filter removes the rows that it does not let through. -/
theorem removes_filter {rows : List α} (h : ∀ a ∈ rows, p a = true ↔ P a) :
    Removes P rows (rows.filter fun a => !p a) (rows.filter p).length := by
  induction rows with
  | nil => exact .nil
  | cons a rest ih =>
    have hrest := ih fun b hb => h b (List.mem_cons_of_mem _ hb)
    have ha := h a List.mem_cons_self
    rw [List.filter_cons, List.filter_cons]
    cases hp : p a with
    | true => exact .gone (ha.mp hp) hrest
    | false => exact .kept (fun hP => by simp [ha.mpr hP] at hp) hrest

end Removes

namespace Memory

variable (m : Memory) (tag : String)

/-- An instance has a tag. -/
def HasTag (id : InstanceId) : Prop := ∃ i ∈ m.instances, i.id = id ∧ i.appTag = tag

/-- An execution belongs to an instance with a tag. -/
def ExecutionHasTag (id : ExecutionId) : Prop :=
  ∃ e ∈ m.executions, e.id = id ∧ m.HasTag tag e.instanceId

/-- A step execution belongs to an execution of an instance with a tag. -/
def StepHasTag (id : StepId) : Prop :=
  ∃ s ∈ m.steps, s.id = id ∧ m.ExecutionHasTag tag s.executionId

/-- A checkpoint key was built for an instance with a tag. -/
def KeyHasTag (key : String) : Prop :=
  ∃ id step kind, m.HasTag tag id ∧ key = (CheckpointKey.ofPair id step kind).encode

variable {m} {tag}

/-- Exactly what belongs to a tag is gone from one ledger to another, and so much it is. -/
structure Purges (m : Memory) (tag : String) (summary : PurgeSummary) (next : Memory) : Prop where
  instances : Removes (fun i => i.appTag = tag) m.instances next.instances summary.instances
  executions : Removes (fun e => m.HasTag tag e.instanceId) m.executions next.executions
    summary.executions
  steps : Removes (fun s => m.ExecutionHasTag tag s.executionId) m.steps next.steps summary.steps
  jobStatuses : Removes (fun status => m.HasTag tag status.instanceId) m.jobStatuses
    next.jobStatuses summary.jobStatuses
  stepStatuses : Removes (fun status => m.StepHasTag tag status.statusId) m.stepStatuses
    next.stepStatuses summary.stepStatuses
  checkpoints : Removes (fun row => m.KeyHasTag tag row.1) m.checkpoints next.checkpoints
    summary.checkpoints
  lastInstance : next.lastInstance = m.lastInstance
  lastExecution : next.lastExecution = m.lastExecution
  lastStep : next.lastStep = m.lastStep

/-- The instances of a tag are those that have it. -/
theorem contains_instancesOf_iff {id : InstanceId} :
    (m.instancesOf tag).contains id ↔ m.HasTag tag id :=
  contains_map_filter_iff fun _ => decide_eq_true_iff

/-- The executions of a tag are those whose instances have it. -/
theorem contains_executionsOfTag_iff {id : ExecutionId} :
    (m.executionsOfTag tag).contains id ↔ m.ExecutionHasTag tag id :=
  contains_map_filter_iff fun _ => contains_instancesOf_iff

/-- The step executions of a tag are those whose executions belong to it. -/
theorem contains_stepsOfTag_iff {id : StepId} :
    (m.stepsOfTag tag).contains id ↔ m.StepHasTag tag id :=
  contains_map_filter_iff fun _ => contains_executionsOfTag_iff

/-- Among the keys of the table those begin like the keys of a tag that were built for it. -/
theorem WellFormed.isKeyOfTag_iff (h : WellFormed m) {row : String × Option Octets}
    (hrow : row ∈ m.checkpoints) : m.isKeyOfTag tag row.1 ↔ m.KeyHasTag tag row.1 := by
  obtain ⟨entries, hpairs⟩ := h.checkpoints_paired
  obtain ⟨key, hkey⟩ := hpairs.exists_key hrow
  rw [hkey, isKeyOfTag, List.any_eq_true]
  simp only [CheckpointKey.isPrefixOf_encode]
  constructor
  · rintro ⟨id, hid, rfl⟩
    exact ⟨_, key.stepName, key.kind, contains_instancesOf_iff.mp (List.contains_iff_mem.mpr hid), rfl⟩
  · rintro ⟨id, step, kind, htag, hsame⟩
    obtain rfl := CheckpointKey.encode_injective hsame
    exact ⟨id, List.contains_iff_mem.mp (contains_instancesOf_iff.mpr htag), rfl⟩

/-- What a call that purges answers and leaves. -/
theorem WellFormed.perform_purge (h : WellFormed m) (tag : String) :
    LedgerStore.perform (.purge tag) m = ⟨.ok (m.countTag tag), m.remaining tag, []⟩ := by
  rw [perform_eq]
  change Action.change (ε := LedgerError) (fun m : Memory => .ok (m.purge tag)) m = _
  exact Action.change_ok (congrArg Except.ok h.purge_eq)

/-- A purge removes exactly what belongs to its tag, and counts it. -/
theorem WellFormed.purges (h : WellFormed m) (tag : String) :
    m.Purges tag (m.purge tag).1 (m.purge tag).2 := by
  rw [h.purge_eq]
  exact {
    instances := removes_filter fun _ _ => decide_eq_true_iff
    executions := removes_filter fun _ _ => contains_instancesOf_iff
    steps := removes_filter fun _ _ => contains_executionsOfTag_iff
    jobStatuses := removes_filter fun _ _ => contains_instancesOf_iff
    stepStatuses := removes_filter fun _ _ => contains_stepsOfTag_iff
    checkpoints := removes_filter fun _ hrow => h.isKeyOfTag_iff hrow
    lastInstance := rfl
    lastExecution := rfl
    lastStep := rfl }

/-! ## A second purge -/

/-- Purging a tag leaves the instances of every other tag. -/
theorem instancesOf_remaining (m : Memory) (tag other : String) :
    (m.remaining tag).instancesOf other = if tag = other then [] else m.instancesOf other := by
  rw [instancesOf, Memory.remaining, List.filter_filter]
  split
  · next hsame =>
    subst hsame
    simp
  · next hne =>
    rw [instancesOf]
    refine congrArg (List.map _) (List.filter_congr fun i _ => ?_)
    rw [Bool.eq_iff_iff]
    simp only [Bool.and_eq_true, decide_eq_true_eq, Bool.not_eq_true', decide_eq_false_iff_not]
    constructor
    · exact fun h => h.1
    · rintro rfl
      exact ⟨rfl, Ne.symm hne⟩

/-- Where no instance has a tag, nothing belongs to it. -/
theorem remaining_of_instancesOf_eq_nil (h : m.instancesOf tag = []) :
    m.remaining tag = m ∧ m.countTag tag = ⟨0, 0, 0, 0, 0, 0⟩ := by
  have hinstances : m.instances.filter (fun i => decide (i.appTag = tag)) = [] :=
    List.map_eq_nil_iff.mp h
  have hothers : m.instances.filter (fun i => !decide (i.appTag = tag)) = m.instances := by
    rw [List.filter_eq_nil_iff] at hinstances
    exact List.filter_eq_self.mpr fun i hi => by simpa using hinstances i hi
  have hexecutions : m.executionsOfTag tag = [] := by
    rw [executionsOfTag, h]
    simp
  have hsteps : m.stepsOfTag tag = [] := by
    rw [stepsOfTag, hexecutions]
    simp
  have hkeys (key : String) : m.isKeyOfTag tag key = false := by rw [isKeyOfTag, h, List.any_nil]
  have hall {α : Type} (rows : List α) : (rows.filter fun _ => true) = rows :=
    List.filter_eq_self.mpr fun _ _ => rfl
  constructor
  · simp [Memory.remaining, h, hexecutions, hsteps, hkeys, hothers, hall]
  · simp [countTag, h, hexecutions, hsteps, hkeys, hinstances]

/-- Nothing is left of a tag that was purged. -/
theorem remaining_again (m : Memory) (tag : String) :
    (m.remaining tag).remaining tag = m.remaining tag ∧
      (m.remaining tag).countTag tag = ⟨0, 0, 0, 0, 0, 0⟩ :=
  remaining_of_instancesOf_eq_nil (by rw [instancesOf_remaining, if_pos rfl])

/-! ## Two tags -/

/-- Taking away what satisfies one condition leaves what satisfies another one that excludes it. -/
theorem filter_of_disjoint {α : Type} {p q : α → Bool} {rows : List α}
    (h : ∀ a ∈ rows, p a = true → q a = false) :
    (rows.filter fun a => !q a).filter p = rows.filter p := by
  rw [List.filter_filter]
  refine List.filter_congr fun a ha => ?_
  cases hp : p a with
  | false => rfl
  | true => rw [h a ha hp]; rfl

/-- Another tag keeps its instances. -/
theorem instancesOf_other {other : String} (hne : tag ≠ other) :
    (m.remaining tag).instancesOf other = m.instancesOf other := by
  rw [instancesOf_remaining, if_neg hne]

/-- Another tag keeps its checkpoint keys. -/
theorem isKeyOfTag_other {other : String} (hne : tag ≠ other) :
    (m.remaining tag).isKeyOfTag other = m.isKeyOfTag other := by
  funext key
  rw [isKeyOfTag, instancesOf_other hne, isKeyOfTag]

section Two

variable {other : String} (hne : tag ≠ other) (h : WellFormed m)

include hne h

/-- An instance has one tag. -/
theorem WellFormed.not_hasTag {id : InstanceId} (htag : m.HasTag other id) : ¬ m.HasTag tag id := by
  rintro ⟨i, hi, hid, hi'⟩
  obtain ⟨j, hj, hid', hj'⟩ := htag
  obtain rfl := h.instances_sorted.distinct.eq_of_key_eq hi hj (hid.trans hid'.symm)
  exact hne (hi'.symm.trans hj')

/-- An execution has one tag only. -/
theorem WellFormed.not_executionHasTag {id : ExecutionId} (htag : m.ExecutionHasTag other id) :
    ¬ m.ExecutionHasTag tag id := by
  rintro ⟨e, he, hid, he'⟩
  obtain ⟨f, hf, hid', hf'⟩ := htag
  obtain rfl := h.executions_sorted.distinct.eq_of_key_eq he hf (hid.trans hid'.symm)
  exact h.not_hasTag hne hf' he'

/-- A step execution has one tag only. -/
theorem WellFormed.not_stepHasTag {id : StepId} (htag : m.StepHasTag other id) :
    ¬ m.StepHasTag tag id := by
  rintro ⟨s, hs, hid, hs'⟩
  obtain ⟨u, hu, hid', hu'⟩ := htag
  obtain rfl := h.steps_sorted.distinct.eq_of_key_eq hs hu (hid.trans hid'.symm)
  exact h.not_executionHasTag hne hu' hs'

/-- A checkpoint key has one tag only. -/
theorem WellFormed.not_keyHasTag {key : String} (htag : m.KeyHasTag other key) :
    ¬ m.KeyHasTag tag key := by
  rintro ⟨id, step, kind, hid, rfl⟩
  obtain ⟨id', step', kind', hid', hsame⟩ := htag
  obtain rfl : id = id' := congrArg CheckpointKey.instanceId (CheckpointKey.encode_injective hsame)
  exact h.not_hasTag hne hid' hid

/-- Another tag keeps the rows of its executions. -/
theorem WellFormed.filter_other_executions :
    (m.remaining tag).executions.filter (fun e => (m.instancesOf other).contains e.instanceId) =
      m.executions.filter fun e => (m.instancesOf other).contains e.instanceId :=
  filter_of_disjoint fun e _ htag => by
    rw [← Bool.not_eq_true, contains_instancesOf_iff]
    exact h.not_hasTag hne (contains_instancesOf_iff.mp htag)

/-- Another tag keeps its executions. -/
theorem WellFormed.executionsOfTag_other :
    (m.remaining tag).executionsOfTag other = m.executionsOfTag other := by
  rw [executionsOfTag, instancesOf_other hne, h.filter_other_executions hne, executionsOfTag]

/-- Another tag keeps the rows of its step executions. -/
theorem WellFormed.filter_other_steps :
    (m.remaining tag).steps.filter (fun s => (m.executionsOfTag other).contains s.executionId) =
      m.steps.filter fun s => (m.executionsOfTag other).contains s.executionId :=
  filter_of_disjoint fun s _ htag => by
    rw [← Bool.not_eq_true, contains_executionsOfTag_iff]
    exact h.not_executionHasTag hne (contains_executionsOfTag_iff.mp htag)

/-- Another tag keeps its step executions. -/
theorem WellFormed.stepsOfTag_other : (m.remaining tag).stepsOfTag other = m.stepsOfTag other := by
  rw [stepsOfTag, h.executionsOfTag_other hne, h.filter_other_steps hne, stepsOfTag]

/-- What belongs to one tag is counted alike after another tag was purged. -/
theorem WellFormed.countTag_other : (m.remaining tag).countTag other = m.countTag other := by
  have hinstances : (m.remaining tag).instances.filter (fun i => decide (i.appTag = other)) =
      m.instances.filter fun i => decide (i.appTag = other) :=
    filter_of_disjoint fun i _ htag => by
      rw [decide_eq_true_iff] at htag
      exact decide_eq_false fun hsame => hne (hsame.symm.trans htag)
  have hjobStatuses :
      (m.remaining tag).jobStatuses.filter
          (fun status => (m.instancesOf other).contains status.instanceId) =
        m.jobStatuses.filter fun status => (m.instancesOf other).contains status.instanceId :=
    filter_of_disjoint fun status _ htag => by
      rw [← Bool.not_eq_true, contains_instancesOf_iff]
      exact h.not_hasTag hne (contains_instancesOf_iff.mp htag)
  have hstepStatuses :
      (m.remaining tag).stepStatuses.filter
          (fun status => (m.stepsOfTag other).contains status.statusId) =
        m.stepStatuses.filter fun status => (m.stepsOfTag other).contains status.statusId :=
    filter_of_disjoint fun status _ htag => by
      rw [← Bool.not_eq_true, contains_stepsOfTag_iff]
      exact h.not_stepHasTag hne (contains_stepsOfTag_iff.mp htag)
  have hcheckpoints :
      (m.remaining tag).checkpoints.filter (fun row => m.isKeyOfTag other row.1) =
        m.checkpoints.filter fun row => m.isKeyOfTag other row.1 :=
    filter_of_disjoint fun row hrow htag => by
      rw [← Bool.not_eq_true, h.isKeyOfTag_iff hrow]
      exact h.not_keyHasTag hne ((h.isKeyOfTag_iff hrow).mp htag)
  rw [countTag, instancesOf_other hne, h.executionsOfTag_other hne, h.stepsOfTag_other hne,
    isKeyOfTag_other hne, hinstances, h.filter_other_executions hne, h.filter_other_steps hne,
    hjobStatuses, hstepStatuses, hcheckpoints, countTag]

/-- What a purge of one tag and then of another leaves, said of the ledger before both. -/
theorem WellFormed.remaining_remaining : (m.remaining tag).remaining other =
    { m with
      instances := m.instances.filter fun i =>
        !decide (i.appTag = other) && !decide (i.appTag = tag)
      executions := m.executions.filter fun e =>
        !(m.instancesOf other).contains e.instanceId && !(m.instancesOf tag).contains e.instanceId
      steps := m.steps.filter fun s =>
        !(m.executionsOfTag other).contains s.executionId &&
          !(m.executionsOfTag tag).contains s.executionId
      jobStatuses := m.jobStatuses.filter fun status =>
        !(m.instancesOf other).contains status.instanceId &&
          !(m.instancesOf tag).contains status.instanceId
      stepStatuses := m.stepStatuses.filter fun status =>
        !(m.stepsOfTag other).contains status.statusId &&
          !(m.stepsOfTag tag).contains status.statusId
      checkpoints := m.checkpoints.filter fun row =>
        !m.isKeyOfTag other row.1 && !m.isKeyOfTag tag row.1 } := by
  rw [Memory.remaining, instancesOf_other hne, h.executionsOfTag_other hne,
    h.stepsOfTag_other hne, isKeyOfTag_other hne]
  simp only [Memory.remaining, List.filter_filter]

end Two

/-- Two tags may be purged in either order. -/
theorem WellFormed.remaining_comm (h : WellFormed m) (tag other : String) :
    (m.remaining tag).remaining other = (m.remaining other).remaining tag := by
  by_cases hne : tag = other
  · rw [hne]
  · rw [h.remaining_remaining hne, h.remaining_remaining (Ne.symm hne)]
    simp only [Bool.and_comm]

end Memory

end JobLedger
