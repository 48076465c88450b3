import JobLedger.Proofs.Durable.StepQueries
import JobLedger.Proofs.Memory.Partitions

/-!
# The counts of partitions in a database

A database looks for the partitions of a step by a pattern on their names first, and by what the
names say only then. The pattern loses the names that have a zero in front of the root, and no others.
The names that partitions are created under have none there, so that where no others begin with a
colon the counts are those that the ledger in memory gives.
-/

namespace JobLedger

open Text

/-- The pattern of a step is not too long to match names against. -/
theorem Database.pattern_fits {root : InstanceId} {step : String}
    (hstep : stepNameFault? step = none) :
    ¬ patternLimit < (PartitionName.pattern root step).utf8ByteSize := by
  have hlong := PartitionName.utf8ByteSize_pattern_le root step
  have hshort := (Memory.proper_of_stepNameFault? hstep).2
  have hlimits : patternLimit = 50000 ∧ stepNameLimit = 512 := ⟨rfl, rfl⟩
  omega

namespace Memory

variable {m : Memory}

/-- The step executions of a ledger with their executions and instances. -/
def withOwners (m : Memory) : List ((StepExecution × JobExecution) × JobInstance) :=
  m.withExecution.filterMap fun pair => (m.instance? pair.2.instanceId).map fun i => (pair, i)

/-- A step execution stands beside its execution and its instance. -/
theorem mem_withOwners {entry : (StepExecution × JobExecution) × JobInstance}
    (hentry : entry ∈ m.withOwners) :
    entry.1 ∈ m.withExecution ∧ m.instance? entry.1.2.instanceId = some entry.2 := by
  obtain ⟨pair, hpair, hmap⟩ := List.mem_filterMap.mp hentry
  obtain ⟨i, hi, rfl⟩ := Option.map_eq_some_iff.mp hmap
  exact ⟨hpair, hi⟩

/-- As every execution has its instance, the join loses no step execution. -/
theorem map_fst_withOwners (h : WellFormed m) : m.withOwners.map Prod.fst = m.withExecution := by
  refine map_fst_filterMap fun pair hpair => ?_
  obtain ⟨-, he⟩ := mem_withExecution hpair
  obtain ⟨i, hi, -⟩ := h.exists_instance (h.execution?_eq_some_iff.mp he).1
  exact ⟨i, hi⟩

/-- The rows of a step execution, its execution and its instance, with the number of the first. -/
def ownedRow (entry : (StepExecution × JobExecution) × JobInstance) :
    Int × StepRow × ExecutionRow × InstanceRow :=
  (entry.1.1.id.number, stepRow entry.1.1, executionRow entry.1.2, instanceRow entry.2)

/-- The join of the three tables gives each step execution with its own instance. -/
theorem stepsWithInstance_eq :
    Database.stepsWithInstance m.instanceTable m.executionTable m.stepTable =
      m.withOwners.map ownedRow := by
  rw [Database.stepsWithInstance, stepsWithOwner_eq, List.filterMap_map, withOwners,
    List.map_filterMap]
  refine congrArg (fun f => List.filterMap f m.withExecution) (funext fun pair => ?_)
  rw [Function.comp_apply, owner?_executionRow, Option.map_map, Option.map_map]
  rfl

/-- The step executions whose instances have names of a kind, with their executions and instances. -/
def ownedUnder (m : Memory) (named : String → Bool) :
    List ((StepExecution × JobExecution) × JobInstance) :=
  m.withOwners.filter fun entry => named entry.2.name

/-- The counts of the partitions of a step are those of the step executions whose instances have the
names. -/
theorem partitionMetrics_eq_ownedUnder (h : WellFormed m) (root : InstanceId) (step : String) :
    m.partitionMetrics root step =
      (m.ownedUnder fun name => PartitionName.belongsTo name root step).map
        fun entry => entry.1.1.metrics := by
  have hsteps : m.steps = m.withOwners.map fun entry => entry.1.1 := by
    rw [← map_fst_withExecution h, ← map_fst_withOwners h, List.map_map]
    rfl
  have hfilter : (m.withOwners.filter fun entry =>
      (m.execution? entry.1.1.executionId).any fun e =>
        ((m.instances.filter fun i => PartitionName.belongsTo i.name root step).map
          JobInstance.id).contains e.instanceId) =
      m.ownedUnder fun name => PartitionName.belongsTo name root step := by
    refine List.filter_congr fun entry hentry => ?_
    obtain ⟨hpair, hi⟩ := mem_withOwners hentry
    obtain ⟨hmem, hid⟩ := h.instance?_eq_some_iff.mp hi
    rw [(mem_withExecution hpair).2, Option.any_some, ← hid,
      h.instances_sorted.distinct.contains_map_filter hmem]
  rw [partitionMetrics_eq, partitionSteps]
  conv => lhs; rw [hsteps]
  rw [List.filter_map, List.map_map, ← hfilter]
  rfl

/-- The pattern of a step loses the names that belong to the step with a zero in front of the root. -/
theorem filter_ownedUnder (root : InstanceId) (step : String) :
    (m.ownedUnder fun name =>
        Like.matches? (PartitionName.pattern root step).toList name.toList).filter
          (fun entry => PartitionName.belongsTo entry.2.name root step) =
      m.ownedUnder fun name =>
        PartitionName.belongsTo name root step && !PartitionName.isPadded name := by
  rw [ownedUnder, ownedUnder, List.filter_filter]
  refine List.filter_congr fun entry _ => ?_
  cases hbelongs : PartitionName.belongsTo entry.2.name root step with
  | false => rfl
  | true => exact PartitionName.matches_pattern_of_belongsTo hbelongs

/-- What a database reads of the rows of a step execution and its instance: a name, and counts. -/
def nameAndCounts (entry : (StepExecution × JobExecution) × JobInstance) :
    String × Counters Int :=
  (entry.2.name, entry.1.1.metrics.map fun count => (count.toNat : Int))

/-- The database gives the counts of the partitions of a step that have no zero in front of the root
in their names. -/
theorem databasePartitionMetrics_eq_ownedUnder {root : InstanceId} {step : String}
    (hstep : stepNameFault? step = none) :
    Database.partitionMetrics root step m.database =
      .ok ((m.ownedUnder fun name =>
        PartitionName.belongsTo name root step && !PartitionName.isPadded name).map
          fun entry => entry.1.1.metrics) := by
  let matched := m.ownedUnder fun name =>
    Like.matches? (PartitionName.pattern root step).toList name.toList
  let found := m.ownedUnder fun name =>
    PartitionName.belongsTo name root step && !PartitionName.isPadded name
  have hrows : (m.withOwners.map ownedRow).filter (fun entry =>
      (Database.patternText entry.2.2.2.name).any
        (Like.matches? (PartitionName.pattern root step).toList)) = matched.map ownedRow := by
    rw [List.filter_map]
    rfl
  have hvalues := mapM_map_ok (g := nameAndCounts) (k := ownedRow)
    (f := fun entry : Int × StepRow × ExecutionRow × InstanceRow => do
      let name ← entry.2.2.2.name.readText "partition step metrics"
      let counters ← entry.2.1.counters.traverse (Cell.readInt "partition step metrics")
      Except.ok (name, counters))
    (l := matched) fun _ _ => rfl
  have hfound : (matched.map nameAndCounts).filter
      (fun entry => PartitionName.belongsTo entry.1 root step) = found.map nameAndCounts := by
    rw [List.filter_map]
    exact congrArg (List.map nameAndCounts) (filter_ownedUnder root step)
  have hcounts := mapM_map_ok (g := fun entry => entry.1.1.metrics) (k := nameAndCounts)
    (f := fun entry : String × Counters Int => storedCounts entry.2) (l := found)
    fun entry _ => storedCounts_map entry.1.1.metrics
  rw [Database.partitionMetrics, need_steps, ok_bind, need_executions, ok_bind, need_instances,
    ok_bind, stepsWithInstance_eq]
  dsimp only
  rw [decide_eq_false (Database.pattern_fits hstep), Bool.false_and, if_neg Bool.false_ne_true, hrows]
  refine (bind_eq_ok_iff).mpr ⟨_, hvalues, ?_⟩
  rw [hfound]
  exact hcounts

/-- Where no name that belongs to a step has a zero in front of the root, the database gives the
counts of the ledger. -/
theorem databasePartitionMetrics_eq_of_unpadded (h : WellFormed m) {root : InstanceId} {step : String}
    (hstep : stepNameFault? step = none)
    (hnames : ∀ i ∈ m.instances, PartitionName.belongsTo i.name root step = true →
      PartitionName.isPadded i.name = false) :
    Database.partitionMetrics root step m.database = .ok (m.partitionMetrics root step) := by
  have hsame : (m.ownedUnder fun name =>
      PartitionName.belongsTo name root step && !PartitionName.isPadded name) =
        m.ownedUnder fun name => PartitionName.belongsTo name root step := by
    refine List.filter_congr fun entry hentry => ?_
    obtain ⟨hmem, -⟩ := h.instance?_eq_some_iff.mp (mem_withOwners hentry).2
    dsimp only
    cases hbelongs : PartitionName.belongsTo entry.2.name root step with
    | false => rfl
    | true => rw [hnames _ hmem hbelongs, Bool.not_false, Bool.and_true]
  rw [databasePartitionMetrics_eq_ownedUnder hstep, partitionMetrics_eq_ownedUnder h, hsame]

/-- Where names with a colon in front are names of partitions, the database gives the counts of the
ledger. -/
theorem databasePartitionMetrics_eq (h : WellFormed m) (hnames : m.NamesPartitions)
    {root : InstanceId} {step : String} (hstep : stepNameFault? step = none) :
    Database.partitionMetrics root step m.database = .ok (m.partitionMetrics root step) := by
  refine databasePartitionMetrics_eq_of_unpadded h hstep fun i hi hbelongs => ?_
  obtain ⟨name, hname⟩ := hnames i hi (PartitionName.isPartitionName_of_belongsTo hbelongs)
  rw [hname]
  exact name.isPadded_encode

end Memory

end JobLedger
