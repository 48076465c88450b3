import JobLedger.Proofs.Memory.Consistent
import JobLedger.Proofs.Memory.PurgeExact
import JobLedger.Proofs.Memory.Tables
import JobLedger.Proofs.Name.Partition
import JobLedger.Proofs.Recording

/-!
# Partitions of a ledger in memory

An instance is a partition of a step if it was created as one. Where names with a colon in front come
into being in this way only, the instances that have a name which belongs to a step are the
partitions of the step that are there, and the counts of the step are those of their step executions.
-/

namespace JobLedger

/-- A text is a name for what was created as a partition, or as none. -/
def NamedAs (text : String) : Option PartitionName → Prop
  | some name => text = name.encode
  | none => isPartitionName text = false

namespace NamedAs

variable {text : String} {origin : Option PartitionName} (h : NamedAs text origin)

include h

/-- A name with an origin was written by that partition name and no other. -/
theorem eq_some_iff {name : PartitionName} : some name = origin ↔ text = name.encode := by
  cases origin with
  | none =>
    refine ⟨nofun, fun htext => ?_⟩
    have hcolon := name.isPartitionName_encode
    rw [← htext, show isPartitionName text = false from h] at hcolon
    exact nomatch hcolon
  | some other =>
    rw [show text = other.encode from h, PartitionName.encode_inj, Option.some.injEq,
      @eq_comm _ other]

/-- A name with a colon in front was written by a partition name. -/
theorem exists_encode (hcolon : isPartitionName text = true) :
    ∃ name : PartitionName, text = name.encode := by
  cases origin with
  | none =>
    rw [show isPartitionName text = false from h] at hcolon
    exact nomatch hcolon
  | some name => exact ⟨name, h⟩

end NamedAs

namespace Memory

variable {m : Memory} {made : Creations}

/-- Instances whose names begin with a colon have names of partitions. -/
def NamesPartitions (m : Memory) : Prop :=
  ∀ i ∈ m.instances, isPartitionName i.name = true → ∃ name : PartitionName, i.name = name.encode

/-- What was created is known, and the instances that are there have the names of partitions that
they were created as. -/
structure FollowsCreations (m : Memory) (made : Creations) : Prop where
  made_le : ∀ entry ∈ made, entry.1.id.number ≤ m.lastInstance
  mem_iff : ∀ i ∈ m.instances, ∀ name, (i, some name) ∈ made ↔ i.name = name.encode
  names : m.NamesPartitions

namespace FollowsCreations

/-- Nothing was created in an empty ledger. -/
theorem empty : Memory.empty.FollowsCreations [] where
  made_le := nofun
  mem_iff := nofun
  names := nofun

variable (h : m.FollowsCreations made)

include h

/-- An instance is added, under a name that fits what it was created as. -/
theorem addInstance (hformed : m.WellFormed) {i : JobInstance} {origin : Option PartitionName}
    (hid : i.id.number = m.lastInstance + 1) (hname : NamedAs i.name origin) :
    FollowsCreations
      { m with lastInstance := i.id.number, instances := m.instances ++ [i] }
      (made ++ [(i, origin)]) where
  made_le entry hentry := by
    rcases List.mem_append.mp hentry with hold | hnew
    · have hle := h.made_le entry hold
      dsimp only
      omega
    · obtain rfl := List.mem_singleton.mp hnew
      exact Nat.le_refl _
  mem_iff j hj name := by
    rw [List.mem_append, List.mem_singleton, Prod.mk.injEq]
    rcases List.mem_append.mp hj with hold | hnew
    · have hnot : ¬ (j = i ∧ some name = origin) := by
        rintro ⟨rfl, -⟩
        have hle := hformed.instance_le j hold
        omega
      rw [h.mem_iff j hold, or_iff_left hnot]
    · obtain rfl := List.mem_singleton.mp hnew
      have hnot : (j, some name) ∉ made := by
        intro hmem
        have hle := h.made_le _ hmem
        dsimp only at hle
        omega
      rw [or_iff_right hnot, and_iff_right rfl, hname.eq_some_iff]
  names j hj := by
    rcases List.mem_append.mp hj with hold | hnew
    · exact h.names j hold
    · obtain rfl := List.mem_singleton.mp hnew
      exact hname.exists_encode

/-- Creations are followed as long as the instances stay. -/
theorem of_instances {next : Memory} (hinstances : next.instances = m.instances)
    (hlast : next.lastInstance = m.lastInstance) : next.FollowsCreations made where
  made_le := hlast ▸ h.made_le
  mem_iff := hinstances ▸ h.mem_iff
  names := by
    rw [NamesPartitions, hinstances]
    exact h.names

/-- Creations are followed when some instances go. -/
theorem remaining (tag : String) : (m.remaining tag).FollowsCreations made where
  made_le := h.made_le
  mem_iff i hi := h.mem_iff i (List.mem_filter.mp hi).1
  names i hi := h.names i (List.mem_filter.mp hi).1

/-- A call that does not give the name of a partition to anything else leaves it known what was
created. -/
theorem perform (hformed : m.WellFormed) {call : Call} {a : call.Answer}
    (hanswer : (LedgerStore.perform call m).answer = .ok a)
    (hnames : (call.instanceMade (.ok a)).NamesPartitions) :
    (LedgerStore.perform call m).state.FollowsCreations (made ++ call.instanceMade (.ok a)) := by
  have hother (hnone : call.instanceName? = none) :
      (LedgerStore.perform call m).state.FollowsCreations (made ++ []) := by
    rw [List.append_nil]
    rcases (changes_perform call m).instances_cases with
      ⟨hinstances, hlast⟩ | ⟨i, hsome, -⟩ | ⟨tag, -, hpurge⟩
    · exact h.of_instances hinstances hlast
    · rw [hnone] at hsome
      exact nomatch hsome
    · rw [hpurge, hformed.purge_eq]
      exact h.remaining tag
  cases call with
  | createInstance name appTag definition =>
    rw [perform_eq] at hanswer ⊢
    obtain ⟨id, hid, rfl, hstate⟩ := createInstance_eq_ok (Action.change_eq_ok hanswer)
    have hname : NamedAs name none := hnames _ (List.mem_singleton.mpr rfl) rfl
    exact hstate ▸ h.addInstance (i := ⟨id, name, appTag, definition⟩) hformed
      (nextId_eq_ok_iff.mp hid) hname
  | createPartition partition appTag =>
    rw [perform_eq] at hanswer ⊢
    obtain ⟨id, hid, rfl, hstate⟩ := createInstance_eq_ok (Action.change_eq_ok hanswer)
    have hname : NamedAs partition.encode (some partition) := rfl
    exact hstate ▸ h.addInstance (i := ⟨id, partition.encode, appTag, none⟩) hformed
      (nextId_eq_ok_iff.mp hid) hname
  | _ => exact hother rfl

/-- The name of an instance belongs to a step exactly if the instance was created as a partition of
the step. -/
theorem belongsTo_iff {i : JobInstance} (hi : i ∈ m.instances) {root : InstanceId} {step : String} :
    PartitionName.belongsTo i.name root step = true ↔
      ∃ index, (i, some ⟨root, step, index⟩) ∈ made := by
  constructor
  · intro hbelongs
    have hcolon := PartitionName.isPartitionName_of_belongsTo hbelongs
    obtain ⟨name, hname⟩ := h.names i hi hcolon
    rw [hname, PartitionName.belongsTo_encode] at hbelongs
    obtain ⟨rfl, rfl⟩ := hbelongs
    exact ⟨name.index, (h.mem_iff i hi name).mpr hname⟩
  · rintro ⟨index, hmade⟩
    rw [(h.mem_iff i hi _).mp hmade, PartitionName.belongsTo_encode]
    exact ⟨rfl, rfl⟩

end FollowsCreations

/-- The step executions of the partitions of a step. -/
def partitionSteps (m : Memory) (root : InstanceId) (step : String) : List StepExecution :=
  m.steps.filter fun s => (m.execution? s.executionId).any fun e =>
    ((m.instances.filter fun i => PartitionName.belongsTo i.name root step).map
      JobInstance.id).contains e.instanceId

/-- Counts of partitions are those of their step executions. -/
theorem partitionMetrics_eq (m : Memory) (root : InstanceId) (step : String) :
    m.partitionMetrics root step = (m.partitionSteps root step).map StepExecution.metrics := rfl

/-- A step execution is one of a partition of a step exactly if its instance is there, and was
created as such a partition. -/
theorem mem_partitionSteps (hformed : m.WellFormed) (h : m.FollowsCreations made)
    {root : InstanceId} {step : String} {s : StepExecution} :
    s ∈ m.partitionSteps root step ↔ s ∈ m.steps ∧ ∃ e i index,
      m.execution? s.executionId = some e ∧ m.instance? e.instanceId = some i ∧
        (i, some ⟨root, step, index⟩) ∈ made := by
  rw [partitionSteps, List.mem_filter]
  refine and_congr_right fun _ => ?_
  constructor
  · intro hany
    obtain ⟨e, he, hcontains⟩ := (Option.any_eq_true _ _).mp hany
    obtain ⟨i, hi, hid⟩ := List.mem_map.mp (List.contains_iff_mem.mp hcontains)
    obtain ⟨hmem, hbelongs⟩ := List.mem_filter.mp hi
    obtain ⟨index, hmade⟩ := (h.belongsTo_iff hmem).mp hbelongs
    exact ⟨e, i, index, he, hformed.instance?_eq_some_iff.mpr ⟨hmem, hid⟩, hmade⟩
  · rintro ⟨e, i, index, he, hi, hmade⟩
    obtain ⟨hmem, hid⟩ := hformed.instance?_eq_some_iff.mp hi
    have hbelongs := (h.belongsTo_iff hmem).mpr ⟨index, hmade⟩
    rw [he, Option.any_some, List.contains_iff_mem, ← hid]
    exact List.mem_map_of_mem (List.mem_filter.mpr ⟨hmem, hbelongs⟩)

end Memory

end JobLedger
