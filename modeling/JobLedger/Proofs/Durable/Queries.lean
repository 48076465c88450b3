import JobLedger.Proofs.Durable.Holding
import JobLedger.Proofs.Durable.KeyPrefixes

/-!
# Queries on a database that holds a ledger

Asked about the history of a ledger, the database that holds it gives the answer of the ledger in
memory: the same records in the same order, read back from rows, or the same error.
-/

namespace JobLedger

open Text

/-- Two answers are the same, errors of the durable store being taken for those of the ledger. -/
def SameAnswer {α : Type} (stored : Except StoreError α) (kept : Except LedgerError α) : Prop :=
  stored.mapError StoreError.toLedger = kept

theorem sameAnswer_ok {α : Type} {stored : Except StoreError α} {a : α} (h : stored = .ok a) :
    SameAnswer stored (.ok a) := by
  rw [SameAnswer, h]
  rfl

namespace Memory

variable {m : Memory}

section Need

variable (operation : String)

/-- The database of a ledger has all its tables, that of the instances first. -/
theorem need_instances : Database.need operation m.database.instances = .ok m.instanceTable := rfl

theorem need_executions : Database.need operation m.database.executions = .ok m.executionTable :=
  rfl

theorem need_steps : Database.need operation m.database.steps = .ok m.stepTable := rfl

theorem need_jobStatuses : Database.need operation m.database.jobStatuses = .ok m.jobStatusTable :=
  rfl

theorem need_stepStatuses :
    Database.need operation m.database.stepStatuses = .ok m.stepStatusTable := rfl

theorem need_checkpoints :
    Database.need operation m.database.checkpoints = .ok (m.checkpoints.map checkpointRow) := rfl

theorem need_some {α : Type} (a : α) : Database.need operation (some a) = .ok a := rfl

theorem need_none {α : Type} :
    Database.need operation (none : Option α) = .error (.failed operation) := rfl

end Need

/-- The executions of a ledger with their instances. -/
def withInstance (m : Memory) : List (JobExecution × JobInstance) :=
  m.executions.filterMap fun e => (m.instance? e.instanceId).map fun i => (e, i)

/-- The step executions of a ledger with their executions. -/
def withExecution (m : Memory) : List (StepExecution × JobExecution) :=
  m.steps.filterMap fun s => (m.execution? s.executionId).map fun e => (s, e)

/-- The join of executions with their instances gives each execution with its own instance. -/
theorem executionsWithOwner_eq : Database.executionsWithOwner m.instanceTable m.executionTable =
    m.withInstance.map fun pair =>
      ((pair.1.id.number : Int), executionRow pair.1, instanceRow pair.2) := by
  rw [Database.executionsWithOwner, executionTable, rowsOf, List.filterMap_map, withInstance,
    List.map_filterMap]
  refine congrArg (fun f => List.filterMap f m.executions) (funext fun e => ?_)
  rw [Function.comp_apply, numberedRow, owner?_executionRow, Option.map_map, Option.map_map]
  rfl

/-- The join of step executions with their executions gives each one with its own execution. -/
theorem stepsWithOwner_eq : Database.stepsWithOwner m.executionTable m.stepTable =
    m.withExecution.map fun pair =>
      ((pair.1.id.number : Int), stepRow pair.1, executionRow pair.2) := by
  rw [Database.stepsWithOwner, stepTable, rowsOf, List.filterMap_map, withExecution,
    List.map_filterMap]
  refine congrArg (fun f => List.filterMap f m.steps) (funext fun s => ?_)
  rw [Function.comp_apply, numberedRow, ownerOfStep?_stepRow, Option.map_map, Option.map_map]
  rfl

/-- Every row of a table that is joined with its owner has one. -/
theorem map_fst_filterMap {α β : Type} {owner : α → Option β} {rows : List α}
    (h : ∀ a ∈ rows, ∃ b, owner a = some b) :
    (rows.filterMap fun a => (owner a).map fun b => (a, b)).map Prod.fst = rows := by
  induction rows with
  | nil => rfl
  | cons a rest ih =>
    obtain ⟨b, hb⟩ := h a List.mem_cons_self
    have hrest := ih fun c hc => h c (List.mem_cons_of_mem _ hc)
    rw [List.filterMap_cons, hb]
    simpa using hrest

/-- An execution stands beside the instance that is found for it. -/
theorem mem_withInstance {pair : JobExecution × JobInstance} (h : pair ∈ m.withInstance) :
    pair.1 ∈ m.executions ∧ m.instance? pair.1.instanceId = some pair.2 := by
  obtain ⟨e, he, hpair⟩ := List.mem_filterMap.mp h
  obtain ⟨i, hi, rfl⟩ := Option.map_eq_some_iff.mp hpair
  exact ⟨he, hi⟩

/-- A step execution stands beside the execution that is found for it. -/
theorem mem_withExecution {pair : StepExecution × JobExecution} (h : pair ∈ m.withExecution) :
    pair.1 ∈ m.steps ∧ m.execution? pair.1.executionId = some pair.2 := by
  obtain ⟨s, hs, hpair⟩ := List.mem_filterMap.mp h
  obtain ⟨e, he, rfl⟩ := Option.map_eq_some_iff.mp hpair
  exact ⟨hs, he⟩

section Answers

variable (h : WellFormed m) (hs : Storable m)

include h

/-- As every execution has its instance, the join loses none. -/
theorem map_fst_withInstance : m.withInstance.map Prod.fst = m.executions :=
  map_fst_filterMap fun _ he =>
    let ⟨i, hi, _⟩ := h.exists_instance he
    ⟨i, hi⟩

/-- As every step execution has its execution, the join loses none. -/
theorem map_fst_withExecution : m.withExecution.map Prod.fst = m.steps :=
  map_fst_filterMap fun _ hs => h.exists_execution hs

/-- The job name in an execution is the name of its instance. -/
theorem name_eq {pair : JobExecution × JobInstance} (hpair : pair ∈ m.withInstance) :
    pair.2.name = pair.1.jobName := by
  obtain ⟨he, hi⟩ := mem_withInstance hpair
  obtain ⟨i, hi', hname⟩ := h.exists_instance he
  rw [hi] at hi'
  obtain rfl := Option.some.inj hi'
  exact hname

/-- An instance is read back from its row. -/
theorem findInstance_eq (id : InstanceId) :
    Database.findInstance id.number m.database = .ok (m.instance? id) := by
  rw [Database.findInstance, database, Database.need, ok_bind, find?_instanceTable]
  cases hi : m.instance? id with
  | none => rfl
  | some i =>
    obtain ⟨-, rfl⟩ := h.instance?_eq_some_iff.mp hi
    rw [Option.map_some]
    dsimp only
    rw [values_instanceRow, ok_bind, record_instanceValues]
    rfl

omit h in
/-- The tag of an instance is read back from its row. -/
theorem tagOfInstance_eq (id : InstanceId) :
    SameAnswer (Database.tagOfInstance id id.number m.database) (m.tagOfInstance id) := by
  rw [SameAnswer, Database.tagOfInstance, database, Database.need, ok_bind, find?_instanceTable,
    tagOfInstance]
  cases m.instance? id with
  | none => rfl
  | some i => rfl

omit h in
/-- The rows of the instances of a name are those of the records. -/
theorem named_eq (name : String) (appTag : Option String) :
    Database.named m.instanceTable name appTag =
      (m.named name appTag).map fun i => (i.id.number : Int) := by
  rw [Database.named, instanceTable, filter_rowsOf, rowsOf, List.map_map, named]
  have hfilter : (fun i : JobInstance => decide ((instanceRow i).name = .text name) &&
      appTag.all fun tag => decide ((instanceRow i).appTag = .text tag)) =
        fun i => decide (i.name = name) && appTag.all fun tag => decide (i.appTag = tag) := by
    funext i
    simp [instanceRow]
  exact congrArg (fun p => (m.instances.filter p).map fun i => (i.id.number : Int)) hfilter

omit h in
/-- The rows of a name are as many as the instances of that name. -/
theorem countInstances_eq (name : String) (appTag : Option String) :
    Database.countInstances name appTag m.database = .ok (m.named name appTag).length := by
  rw [Database.countInstances, database, Database.need, ok_bind, named_eq, List.length_map]

/-- Of a ledger that can be stored, the positions of a page fit in a statement. -/
theorem pageInstances_eq (hs : Storable m) (name : String) (appTag : Option String)
    (start count : Nat) :
    Database.pageInstances name appTag start count m.database =
      .ok (m.pageInstances name appTag start count) := by
  have hall : m.instances.length ≤ m.lastInstance := h.instances_sorted.length_le h.instance_le
  have hnamed : (m.named name appTag).length ≤ m.instances.length := List.length_filter_le _ _
  have hfits : ((m.named name appTag).reverse.length : Int) < signedLimit := by
    have hlast := hs.lastInstance_lt
    rw [List.length_reverse]
    omega
  have hdrop : (m.named name appTag).reverse.drop (saturate start) =
      (m.named name appTag).reverse.drop start :=
    List.drop_eq_drop_iff.mpr (min_saturate hfits)
  have htake : ((m.named name appTag).reverse.drop start).take (saturate count) =
      ((m.named name appTag).reverse.drop start).take count := by
    refine List.take_eq_take_iff.mpr (min_saturate ?_)
    rw [List.length_drop]
    omega
  rw [Database.pageInstances, database, Database.need, ok_bind]
  dsimp only
  rw [named_eq, ← List.map_reverse, ← List.map_drop, ← List.map_take, hdrop, htake, pageInstances]
  exact mapM_map_ok fun i _ => idOfRow_number i.id

/-- An execution is read back from its row, with the name in the row of its instance. -/
theorem findExecution_eq (hs : Storable m) (id : ExecutionId) :
    Database.findExecution id.number m.database = .ok (m.execution? id) := by
  rw [Database.findExecution, database, Database.need, ok_bind, Database.need, ok_bind,
    find?_executionTable]
  cases he : m.execution? id with
  | none => rfl
  | some e =>
    obtain ⟨hmem, rfl⟩ := h.execution?_eq_some_iff.mp he
    obtain ⟨i, hi, hname⟩ := h.exists_instance hmem
    rw [Option.map_some]
    dsimp only
    rw [owner?_executionRow, hi, Option.map_some]
    have hcell : (instanceRow i).name = .text e.jobName := congrArg Cell.text hname
    dsimp only
    rw [hcell, values_executionRow, ok_bind, record_executionValues (hs.parameters_fit e hmem)]
    rfl

/-- The executions of an instance with the instance, read back. -/
theorem executionsOf_eq (hs : Storable m) (id : InstanceId) :
    Database.executionsOf id.number m.database = .ok (m.executionsOf id) := by
  have hfilter : ((m.withInstance.map fun pair =>
      ((pair.1.id.number : Int), executionRow pair.1, instanceRow pair.2)).filter fun entry =>
        entry.2.1.instanceId = .int id.number) =
      (m.withInstance.filter fun pair => pair.1.instanceId = id).map fun pair =>
        ((pair.1.id.number : Int), executionRow pair.1, instanceRow pair.2) := by
    rw [List.filter_map]
    refine congrArg (List.map _) (List.filter_congr fun pair _ => ?_)
    simp only [Function.comp_apply, executionRow, numberCell_inj]
  have hkept : ((m.withInstance.filter fun pair => pair.1.instanceId = id).map Prod.fst) =
      m.executions.filter fun e => e.instanceId = id := by
    rw [← map_fst_withInstance h, List.filter_map]
    rfl
  rw [Database.executionsOf, database, Database.need, ok_bind, Database.need, ok_bind,
    executionsWithOwner_eq]
  dsimp only
  rw [hfilter, ← List.map_reverse]
  have hmem {pair : JobExecution × JobInstance}
      (hpair : pair ∈ (m.withInstance.filter fun pair => pair.1.instanceId = id).reverse) :
      pair ∈ m.withInstance :=
    (List.mem_filter.mp (List.mem_reverse.mp hpair)).1
  have hvalues := mapM_map_ok (g := fun pair : JobExecution × JobInstance => executionValues pair.1)
    (f := fun entry : Int × ExecutionRow × InstanceRow =>
      entry.2.1.values "job executions for instance" entry.1 entry.2.2.name)
    (k := fun pair => ((pair.1.id.number : Int), executionRow pair.1, instanceRow pair.2))
    (l := (m.withInstance.filter fun pair => pair.1.instanceId = id).reverse)
    fun pair hpair => by
      have hcell : (instanceRow pair.2).name = .text pair.1.jobName :=
        congrArg Cell.text (name_eq h (hmem hpair))
      dsimp only
      rw [hcell, values_executionRow]
  rw [hvalues, ok_bind, executionsOf, ← hkept, ← List.map_reverse]
  exact mapM_map_ok fun pair hpair =>
    record_executionValues (hs.parameters_fit _ (mem_withInstance (hmem hpair)).1)

omit h in
/-- The labels that the query lists are those of the statuses in which an execution is on its way. -/
theorem isRunningCell_label (status : BatchStatus) :
    Database.isRunningCell (.text status.label) = status.isRunning := by
  cases status <;> decide

/-- The rows with a running label are those of the executions that are on their way. -/
theorem runningExecutions_eq (jobName : String) :
    Database.runningExecutions jobName m.database = .ok (m.runningExecutions jobName) := by
  have hfilter : ((m.withInstance.map fun pair =>
      ((pair.1.id.number : Int), executionRow pair.1, instanceRow pair.2)).filter fun entry =>
        entry.2.2.name = .text jobName && Database.isRunningCell entry.2.1.status) =
      (m.withInstance.filter fun pair =>
        pair.1.jobName = jobName && pair.1.status.isRunning).map fun pair =>
          ((pair.1.id.number : Int), executionRow pair.1, instanceRow pair.2) := by
    rw [List.filter_map]
    refine congrArg (List.map _) (List.filter_congr fun pair hpair => ?_)
    simp [executionRow, instanceRow, isRunningCell_label, name_eq h hpair]
  rw [Database.runningExecutions, database, Database.need, ok_bind, Database.need, ok_bind,
    executionsWithOwner_eq]
  dsimp only
  rw [hfilter, runningExecutions, ← map_fst_withInstance h, List.filter_map, List.map_map]
  exact mapM_map_ok fun pair _ => idOfRow_number pair.1.id

omit h in
/-- The instance of an execution is read back from its row. -/
theorem instanceOf_eq (id : ExecutionId) :
    SameAnswer (Database.instanceOf id id.number m.database)
      ((m.execution id).map JobExecution.instanceId) := by
  rw [SameAnswer, Database.instanceOf, database, Database.need, ok_bind, find?_executionTable,
    Memory.execution_eq]
  cases m.execution? id with
  | none => rfl
  | some e =>
    rw [Option.map_some]
    dsimp only [executionRow, Cell.readInt]
    rw [ok_bind, idOfRow_number]
    rfl

/-- The parameters of an execution are decoded from the blob in its row. -/
theorem parametersOf_eq (hs : Storable m) (id : ExecutionId) :
    SameAnswer (Database.parametersOf id id.number m.database)
      ((m.execution id).map JobExecution.parameters) := by
  rw [SameAnswer, Database.parametersOf, database, Database.need, ok_bind, find?_executionTable,
    Memory.execution_eq]
  cases he : m.execution? id with
  | none => rfl
  | some e =>
    obtain ⟨hmem, rfl⟩ := h.execution?_eq_some_iff.mp he
    have hparameters : storedParameters e.id (blob e.parameters) = .ok e.parameters :=
      storedValue_blob (hs.parameters_fit e hmem)
    rw [Option.map_some]
    dsimp only [executionRow, Cell.readBlob]
    rw [ok_bind, hparameters]
    rfl

/-- The tag is read from the row of the instance that an execution refers to. -/
theorem tagOfExecution_eq (id : ExecutionId) :
    SameAnswer (Database.tagOfExecution id id.number m.database) (m.tagOfExecution id) := by
  rw [SameAnswer, Database.tagOfExecution, database, Database.need, ok_bind, Database.need, ok_bind,
    find?_executionTable, tagOfExecution, Memory.execution_eq]
  cases he : m.execution? id with
  | none => rfl
  | some e =>
    obtain ⟨i, hi, -⟩ := h.exists_instance (h.execution?_eq_some_iff.mp he).1
    rw [Option.map_some, Option.bind_some, owner?_executionRow]
    dsimp only
    rw [ok_bind, hi]
    rfl

omit h in
/-- The later of two rows is that of the later execution, of which the second has the higher
number. -/
theorem laterRow_eq {best : Option JobExecution} {e : JobExecution}
    (hbest : ∀ b ∈ best, b.id.number < e.id.number) :
    Database.laterRow (best.map fun b => ((b.id.number : Int), Cell.time b.createTime))
        (e.id.number, .time e.createTime) =
      (Tables.laterExecution best e).map fun b =>
        ((b.id.number : Int), Cell.time b.createTime) := by
  cases best with
  | none => rfl
  | some b =>
    have hle : (Cell.time b.createTime).le (.time e.createTime) =
        decide (b.createTime.millis ≤ e.createTime.millis) := by
      rw [Bool.eq_iff_iff, decide_eq_true_eq, Int64.le_iff_toInt_le]
      exact decide_eq_true_iff
    have hlater : b.createTime.millis ≤ e.createTime.millis ↔
        b.createTime.millis < e.createTime.millis ∨
          b.createTime.millis = e.createTime.millis ∧ b.id.number ≤ e.id.number := by
      have hnumber := Nat.le_of_lt (hbest b rfl)
      simp only [Int64.le_iff_toInt_le, Int64.lt_iff_toInt_lt, ← Int64.toInt_inj, hnumber, and_true]
      omega
    rw [Option.map_some, Database.laterRow, Tables.laterExecution, hle]
    simp only [← hlater, decide_eq_true_eq]
    split <;> rfl

omit h in
/-- Among executions in the order of their numbers the last row is that of the last execution. -/
theorem foldl_laterRow {executions : List JobExecution} {best : Option JobExecution}
    (hsorted : executions.Pairwise fun a b => a.id.number < b.id.number)
    (hbest : ∀ b ∈ best, ∀ e ∈ executions, b.id.number < e.id.number) :
    (executions.map fun e => ((e.id.number : Int), Cell.time e.createTime)).foldl
        Database.laterRow (best.map fun b => ((b.id.number : Int), Cell.time b.createTime)) =
      (executions.foldl Tables.laterExecution best).map fun b =>
        ((b.id.number : Int), Cell.time b.createTime) := by
  induction executions generalizing best with
  | nil => rfl
  | cons e rest ih =>
    obtain ⟨hfirst, hrest⟩ := List.pairwise_cons.mp hsorted
    have hlater := laterRow_eq fun b hb => hbest b hb e List.mem_cons_self
    rw [List.map_cons, List.foldl_cons, List.foldl_cons, hlater, ih hrest]
    -- What has come out on top so far is the new execution, or what was there before.
    intro b hb later hmem
    cases best with
    | none =>
      obtain rfl := Option.some.inj hb
      exact hfirst later hmem
    | some old =>
      rw [Tables.laterExecution] at hb
      split at hb
      · obtain rfl := Option.some.inj hb
        exact hfirst later hmem
      · obtain rfl := Option.some.inj hb
        exact hbest _ rfl later (List.mem_cons_of_mem _ hmem)

/-- The execution that was created last is found in the order of times and numbers. -/
theorem latestExecution_eq (id : InstanceId) :
    Database.latestExecution id.number m.database = .ok (Tables.latestExecution id m) := by
  have hrows : ((m.executionTable.rows.filter fun entry =>
      entry.2.instanceId = .int id.number).map fun entry => (entry.1, entry.2.createTime)) =
        (m.executions.filter fun e => e.instanceId = id).map fun e =>
          ((e.id.number : Int), Cell.time e.createTime) := by
    rw [executionTable, filter_rowsOf, rowsOf, List.map_map]
    refine congrArg (List.map _) (List.filter_congr fun e _ => ?_)
    simp only [numberedRow, executionRow, numberCell_inj]
  have hkept : Tables.latestExecution id m =
      ((m.executions.filter fun e => e.instanceId = id).foldl Tables.laterExecution none).map
        JobExecution.id := rfl
  rw [Database.latestExecution, database, Database.need, ok_bind]
  dsimp only
  rw [hrows]
  have hnone : ∀ b ∈ (none : Option JobExecution), ∀ e ∈ m.executions.filter
      fun e => e.instanceId = id, b.id.number < e.id.number := by simp
  have hfold := foldl_laterRow (h.executions_sorted.filter _) hnone
  rw [Option.map_none] at hfold
  rw [hfold, hkept]
  cases (m.executions.filter fun e => e.instanceId = id).foldl Tables.laterExecution none with
  | none => rfl
  | some e =>
    rw [Option.map_some]
    dsimp only
    rw [idOfRow_number]
    rfl

omit h in
/-- The query and the ledger in memory take the same names for those of partitions. -/
theorem isExternal_text (name : String) :
    Database.isExternal (.text name) = !isPartitionName name := by
  have hplain : '\x00' ∉ [':'] := by decide
  have hcolon : window 1 1 name.toList = [':'] ↔ [':'] <+: name.toList :=
    window_eq_iff_prefix hplain
  have hhead : [':'] <+: name.toList ↔ name.toList.head? = some ':' := by
    cases name.toList with
    | nil => simp
    | cons c rest => simp [List.cons_prefix_cons, eq_comm]
  simp only [Database.isExternal, isPartitionName, hcolon.trans hhead, ne_eq, decide_not]

omit h in
/-- The instances that are no partitions, in the order of their names, are read back from rows. -/
theorem externalRows_eq : ∃ named : List JobInstance,
    named.Perm (m.instances.filter fun i => !i.isPartition) ∧
      Database.externalRows m.instanceTable = rowsOf JobInstance.id instanceRow named := by
  have hfilter : (m.instanceTable.rows.filter fun entry => Database.isExternal entry.2.name) =
      rowsOf JobInstance.id instanceRow (m.instances.filter fun i => !i.isPartition) := by
    rw [instanceTable, filter_rowsOf]
    refine congrArg _ (List.filter_congr fun i _ => ?_)
    exact isExternal_text i.name
  rw [Database.externalRows, hfilter]
  exact ⟨_, List.mergeSort_perm _ _, mergeSort_rowsOf _⟩

/-- The instances that are no partitions stand in the order of their numbers. -/
theorem externalInstances_eq_map : Tables.externalInstances m =
    (m.instances.filter fun i => !i.isPartition).map fun i => (i.id, i.name) := by
  have hasymm (a b : InstanceId) (hlt : a < b) : ¬ b < a := Nat.lt_asymm hlt
  have hsorted := h.instances_sorted.filter fun i => !i.isPartition
  refine (Entries.foldl_insert hasymm JobInstance.id JobInstance.name [] _ ?_).trans
    (List.nil_append _)
  rw [List.nil_append, List.pairwise_map]
  exact hsorted.imp fun hlt => hlt

/-- Rows in the order of an index on names are answered with in the order of numbers. -/
theorem externalInstances_eq :
    Database.externalInstances m.database = .ok (Tables.externalInstances m) := by
  rw [externalInstances_eq_map h]
  let external := (m.instances.filter fun i => !i.isPartition).map fun i => (i.id, i.name)
  obtain ⟨named, hperm, hrows⟩ := externalRows_eq (m := m)
  have hread := mapM_map_ok (g := fun i : JobInstance => ((i.id.number : Int), i.name))
    (f := fun entry : Int × InstanceRow =>
      (entry.2.name.readText "external job instances").map fun name => (entry.1, name))
    (k := numberedRow JobInstance.id instanceRow) (l := named) fun i _ => rfl
  have hfound := mapM_map_ok (g := fun i : JobInstance => (i.id, i.name))
    (f := fun entry : Int × String =>
      (idOfRow entry.1 : Except StoreError InstanceId).map fun id => (id, entry.2))
    (k := fun i => ((i.id.number : Int), i.name)) (l := named) fun i _ => by
      dsimp only
      rw [idOfRow_number]
      rfl
  have hsorted : external.Pairwise fun a b => a.1.number ≤ b.1.number := by
    rw [List.pairwise_map]
    exact (h.instances_sorted.filter _).imp fun hlt => Nat.le_of_lt hlt
  have hsort : ((named.map fun i => (i.id, i.name)).mergeSort fun a b => a.1.number ≤ b.1.number) =
      external := by
    have hsame := (List.mergeSort_perm (named.map fun i => (i.id, i.name))
      fun a b => a.1.number ≤ b.1.number).trans (hperm.map fun i => (i.id, i.name))
    have hpairwise : ((named.map fun i => (i.id, i.name)).mergeSort
        fun a b => a.1.number ≤ b.1.number).Pairwise
          fun a b => decide (a.1.number ≤ b.1.number) = true :=
      List.pairwise_mergeSort (by simp only [decide_eq_true_eq]; omega)
        (by simp only [Bool.or_eq_true, decide_eq_true_eq]; omega) _
    refine hsame.eq_of_pairwise ?_ (hpairwise.imp fun hle => of_decide_eq_true hle) hsorted
    intro a b ha hb hab hba
    obtain ⟨i, hi, rfl⟩ := List.mem_map.mp (hsame.mem_iff.mp ha)
    obtain ⟨j, hj, rfl⟩ := List.mem_map.mp hb
    have hid : i.id = j.id := Id.ext (Nat.le_antisymm hab hba)
    rw [h.instances_sorted.distinct.eq_of_key_eq (List.mem_filter.mp hi).1
      (List.mem_filter.mp hj).1 hid]
  rw [Database.externalInstances, database, Database.need, ok_bind, hrows]
  dsimp only
  rw [rowsOf, hread, ok_bind, hfound, ok_bind, hsort]

end Answers

end Memory

end JobLedger
