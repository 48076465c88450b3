import JobLedger.Durable.LedgerFile
import JobLedger.Proofs.Blob
import JobLedger.Proofs.Durable.Rows
import JobLedger.Proofs.Memory.Calls

/-!
# The database that holds a ledger

For every ledger in memory there is a database with the same content: its records as rows, its
status records and its tokens as blobs. A row gives back the record it was made of, as long as
blobs are no longer than a frame allows.
-/

namespace JobLedger

open Json Text

/-! ## Reading what was written -/

section Reading

variable {entity : Entity} (operation : String)

/-- A number that fits a signed word is the number of a row. -/
theorem rowOf_of_lt {id : Id entity} (h : (id.number : Int) < signedLimit) :
    rowOf id = .ok (id.number : Int) :=
  if_pos h

/-- A number beyond the signed words is refused. -/
theorem rowOf_of_not_lt {id : Id entity} (h : ¬ (id.number : Int) < signedLimit) :
    rowOf id = .error ⟨.invalid, .idRange id.number⟩ :=
  if_neg h

/-- The number of an identifier is read back as that identifier. -/
@[simp] theorem idOfRow_number (id : Id entity) : idOfRow (id.number : Int) = .ok id := by
  rw [idOfRow, Int.toNat_natCast, Id.ofNat?_number, Option.elim_some]

/-- The label of a status is read back as that status. -/
@[simp] theorem storedStatus_label (status : BatchStatus) :
    storedStatus status.label = .ok status := by
  rw [storedStatus, BatchStatus.ofLabel?_label, Option.elim_some]

/-- A time is read back from a cell. -/
@[simp] theorem readTime_time (t : Timestamp) : (Cell.time t).readTime operation = .ok t := by
  simp only [Cell.readTime, Cell.time, Cell.readInt, Timestamp.ofMillis?, bind, Except.bind,
    int64?_toInt, Option.map_some, Option.elim_some]

/-- A text that may be missing is read back from a cell. -/
@[simp] theorem readOption_text (s : Option String) :
    (Cell.ofOption .text s).readOption (Cell.readText operation) = .ok s := by
  cases s with
  | none => rfl
  | some s => rfl

/-- A time that may be missing is read back from a cell. -/
@[simp] theorem readOption_time (t : Option Timestamp) :
    (Cell.ofOption .time t).readOption (Cell.readTime operation) = .ok t := by
  cases t with
  | none => rfl
  | some t =>
    have hread := readTime_time operation t
    simp only [Cell.ofOption, Cell.time, Cell.readOption] at hread ⊢
    rw [hread]
    rfl

/-- What each of many rows gives, they give together. -/
theorem mapM_map_ok {ε α β γ : Type} {f : β → Except ε γ} {k : α → β} {g : α → γ} {l : List α}
    (h : ∀ a ∈ l, f (k a) = .ok (g a)) : (l.map k).mapM f = .ok (l.map g) :=
  mapM_map_pure h

end Reading

namespace Counters

variable {ε α β : Type} {f : α → Except ε β}

/-- What succeeds at every counter succeeds at all of them. -/
theorem traverse_ok {g : α → β} {c : Counters α} (h : ∀ a ∈ c.toList, f a = .ok (g a)) :
    c.traverse f = .ok (c.map g) := by
  simp only [toList, List.forall_mem_cons] at h
  obtain ⟨h₁, h₂, h₃, h₄, h₅, h₆, h₇, h₈, -⟩ := h
  simp only [traverse, h₁, h₂, h₃, h₄, h₅, h₆, h₇, h₈, bind, Except.bind]
  rfl

/-- Entries are changed only if none is refused. -/
theorem forall_of_traverse_ok {c : Counters α} {d : Counters β} (h : c.traverse f = .ok d) :
    ∀ a ∈ c.toList, ∃ b, f a = .ok b := by
  simp only [traverse, bind_eq_ok_iff] at h
  obtain ⟨b₁, h₁, b₂, h₂, b₃, h₃, b₄, h₄, b₅, h₅, b₆, h₆, b₇, h₇, b₈, h₈, -⟩ := h
  simp only [toList, List.forall_mem_cons]
  exact ⟨⟨b₁, h₁⟩, ⟨b₂, h₂⟩, ⟨b₃, h₃⟩, ⟨b₄, h₄⟩, ⟨b₅, h₅⟩, ⟨b₆, h₆⟩, ⟨b₇, h₇⟩, ⟨b₈, h₈⟩,
    List.forall_mem_nil _⟩

end Counters

/-- The cells of counts, whether they fit in a column or not. -/
def countCells (metrics : StepMetrics) : Counters Cell := metrics.map fun count => .int count.toNat

/-- Counts fit in columns. -/
def CountsFit (metrics : StepMetrics) : Prop :=
  ∀ count ∈ metrics.toList, (count.toNat : Int) < signedLimit

instance (metrics : StepMetrics) : Decidable (CountsFit metrics) :=
  List.decidableBAll _ metrics.toList

/-- Counters that fit signed words are written as cells. -/
theorem counterCells_of_fit {metrics : StepMetrics} (h : CountsFit metrics) :
    counterCells metrics = .ok (countCells metrics) :=
  Counters.traverse_ok fun count hcount => if_pos (h count hcount)

/-- Counters that are written fit signed words. -/
theorem countsFit_of_counterCells {metrics : StepMetrics} {cells : Counters Cell}
    (h : counterCells metrics = .ok cells) : CountsFit metrics := by
  intro count hcount
  obtain ⟨cell, hcell⟩ := Counters.forall_of_traverse_ok h count hcount
  split at hcell
  · assumption
  · exact nomatch hcell

/-- Counters are read back from their cells. -/
theorem storedCounts_map (metrics : StepMetrics) :
    storedCounts (metrics.map fun count => (count.toNat : Int)) = .ok metrics := by
  have hread : storedCounts (metrics.map fun count => (count.toNat : Int)) =
      .ok ((metrics.map fun count => (count.toNat : Int)).map fun n => UInt64.ofNat n.toNat) := by
    refine Counters.traverse_ok fun n hn => if_pos ?_
    rw [Counters.toList_map] at hn
    obtain ⟨count, -, rfl⟩ := List.mem_map.mp hn
    exact Int.natCast_nonneg _
  rw [hread]
  simp [Counters.map]

/-! ## Rows of records -/

/-- The row of an instance. -/
def instanceRow (i : JobInstance) : InstanceRow :=
  ⟨.text i.name, .text i.appTag, .ofOption .text i.definition⟩

/-- The row of an execution. -/
def executionRow (e : JobExecution) : ExecutionRow :=
  ⟨.int e.instanceId.number, .time e.createTime, .ofOption .time e.startTime,
    .ofOption .time e.endTime, .time e.updateTime, .text e.status.label,
    .ofOption .text e.exitStatus, .blob (blob e.parameters)⟩

/-- The row of a step execution. -/
def stepRow (s : StepExecution) : StepRow :=
  ⟨.int s.executionId.number, .text s.stepName, .text s.status.label,
    .ofOption .text s.exitStatus, countCells s.metrics, .time s.startTime,
    .ofOption .time s.endTime, .blob (Frame.framed s.userData)⟩

/-- The values in the row of an instance. -/
def instanceValues (i : JobInstance) : InstanceValues :=
  ⟨i.id.number, i.name, i.appTag, i.definition⟩

/-- The values in the row of an execution. -/
def executionValues (e : JobExecution) : ExecutionValues :=
  ⟨e.id.number, e.instanceId.number, e.jobName, e.createTime, e.startTime, e.endTime, e.updateTime,
    e.status.label, e.exitStatus, blob e.parameters⟩

/-- The values in the row of a step execution. -/
def stepValues (s : StepExecution) : StepValues :=
  ⟨s.id.number, s.executionId.number, s.stepName, s.status.label, s.exitStatus,
    s.metrics.map fun count => (count.toNat : Int), s.startTime, s.endTime,
    Frame.framed s.userData⟩

section Rows

variable (operation : String)

/-- The cells of an instance are of the types that a query expects. -/
theorem values_instanceRow (i : JobInstance) :
    (instanceRow i).values operation i.id.number = .ok (instanceValues i) := by
  simp only [InstanceRow.values, instanceRow, Cell.readText, readOption_text, bind, Except.bind,
    instanceValues]

/-- An instance is put together again from what was in its row. -/
theorem record_instanceValues (i : JobInstance) : (instanceValues i).record = .ok i := by
  simp only [InstanceValues.record, instanceValues, idOfRow_number, bind, Except.bind]

/-- The cells of an execution are of the types that a query expects. -/
theorem values_executionRow (e : JobExecution) :
    (executionRow e).values operation e.id.number (.text e.jobName) = .ok (executionValues e) := by
  simp only [ExecutionRow.values, executionRow, Cell.readText, Cell.readInt, Cell.readBlob,
    readTime_time, readOption_text, readOption_time, bind, Except.bind, executionValues]

/-- An execution is put together from values that are all read. -/
theorem record_of_values {v : ExecutionValues} {id : ExecutionId} {instanceId : InstanceId}
    {status : BatchStatus} {parameters : JobParameters} (hid : idOfRow v.row = .ok id)
    (hparameters : storedParameters id v.parameters = .ok parameters)
    (hinstance : idOfRow v.instanceId = .ok instanceId)
    (hstatus : storedStatus v.status = .ok status) :
    v.record = .ok ⟨id, instanceId, v.jobName, v.createTime, v.startTime, v.endTime, v.updateTime,
      status, v.exitStatus, parameters⟩ := by
  simp only [ExecutionValues.record, hid, hparameters, hinstance, hstatus, bind, Except.bind]

/-- An execution is put together again from what was in its row. -/
theorem record_executionValues {e : JobExecution} (h : HasBlob e.parameters) :
    (executionValues e).record = .ok e := by
  have hparameters : storedParameters e.id (blob e.parameters) = .ok e.parameters :=
    storedValue_blob h
  exact record_of_values (v := executionValues e) (idOfRow_number _) hparameters (idOfRow_number _)
    (storedStatus_label _)

/-- The cells of a step execution are of the types that a query expects. -/
theorem values_stepRow (s : StepExecution) :
    (stepRow s).values operation s.id.number = .ok (stepValues s) := by
  have hcounters : (countCells s.metrics).traverse (Cell.readInt operation) =
      .ok (s.metrics.map fun count => (count.toNat : Int)) := by
    rfl
  simp only [StepRow.values, stepRow, Cell.readText, Cell.readInt, Cell.readBlob, hcounters,
    readTime_time, readOption_text, readOption_time, bind, Except.bind, stepValues]

/-- A step execution is put together again from what was in its row. -/
theorem record_stepValues {s : StepExecution} (h : Frame.Fits s.userData) :
    (stepValues s).record = .ok s := by
  simp only [StepValues.record, stepValues, idOfRow_number, storedStatus_label, bind,
    Except.bind, storedToken_framed h, storedCounts_map]

end Rows

/-! ## The database of a ledger -/

/-- Cells refer to one record exactly if they have one number. -/
theorem numberCell_inj {entity : Entity} {a b : Id entity} :
    Cell.int a.number = .int b.number ↔ a = b := by
  rw [Cell.int.injEq, number_inj]

/-- The row of a checkpoint key. -/
def checkpointRow (row : String × Option Octets) : Cell × Cell :=
  (.text row.1, .blob (Frame.framed row.2))

namespace Memory

variable (m : Memory)

/-- The table of the instances of a ledger. -/
def instanceTable : Table InstanceRow :=
  ⟨rowsOf JobInstance.id instanceRow m.instances, m.lastInstance⟩

/-- The table of the executions of a ledger. -/
def executionTable : Table ExecutionRow :=
  ⟨rowsOf JobExecution.id executionRow m.executions, m.lastExecution⟩

/-- The table of the step executions of a ledger. -/
def stepTable : Table StepRow := ⟨rowsOf StepExecution.id stepRow m.steps, m.lastStep⟩

/-- The cell of a record that is stored as a blob. -/
def recordCell {α : Type} [JsonForm α] (a : α) : Cell := .blob (blob a)

/-- The table of the status records of the instances of a ledger. -/
def jobStatusTable : Table Cell :=
  ⟨sortRows (rowsOf JobStatus.instanceId recordCell m.jobStatuses), 0⟩

/-- The table of the status records of the steps of a ledger. -/
def stepStatusTable : Table Cell :=
  ⟨sortRows (rowsOf StepStatus.statusId recordCell m.stepStatuses), 0⟩

/-- The database with the content of a ledger. -/
def database : Database where
  versions := some [.int schemaVersion]
  instances := some m.instanceTable
  executions := some m.executionTable
  steps := some m.stepTable
  jobStatuses := some m.jobStatusTable
  stepStatuses := some m.stepStatusTable
  checkpoints := some (m.checkpoints.map checkpointRow)
  indexes := ⟨true, true, true, true⟩

/-- What a ledger holds can be stored: its counters are numbers of rows, and every record that is
stored as a blob has one. -/
structure Storable : Prop where
  lastInstance_lt : (m.lastInstance : Int) < signedLimit
  lastExecution_lt : (m.lastExecution : Int) < signedLimit
  lastStep_lt : (m.lastStep : Int) < signedLimit
  parameters_fit : ∀ e ∈ m.executions, HasBlob e.parameters
  userData_fits : ∀ s ∈ m.steps, Frame.Fits s.userData
  jobStatus_fits : ∀ status ∈ m.jobStatuses, HasBlob status
  stepStatus_fits : ∀ status ∈ m.stepStatuses, HasBlob status
  token_fits : ∀ row ∈ m.checkpoints, Frame.Fits row.2

instance : Decidable m.Storable :=
  decidable_of_iff
    (((m.lastInstance : Int) < signedLimit ∧ (m.lastExecution : Int) < signedLimit ∧
        (m.lastStep : Int) < signedLimit) ∧
      (∀ e ∈ m.executions, HasBlob e.parameters) ∧ (∀ s ∈ m.steps, Frame.Fits s.userData) ∧
      (∀ status ∈ m.jobStatuses, HasBlob status) ∧
      (∀ status ∈ m.stepStatuses, HasBlob status) ∧ ∀ row ∈ m.checkpoints, Frame.Fits row.2)
    ⟨fun ⟨⟨hi, he, hs⟩, hparameters, huserData, hjob, hstep, htoken⟩ =>
      ⟨hi, he, hs, hparameters, huserData, hjob, hstep, htoken⟩,
    fun ⟨hi, he, hs, hparameters, huserData, hjob, hstep, htoken⟩ =>
      ⟨⟨hi, he, hs⟩, hparameters, huserData, hjob, hstep, htoken⟩⟩

/-- Nothing is too large in an empty ledger. -/
theorem storable_empty : Storable empty where
  lastInstance_lt := by decide
  lastExecution_lt := by decide
  lastStep_lt := by decide
  parameters_fit _ h := nomatch h
  userData_fits _ h := nomatch h
  jobStatus_fits _ h := nomatch h
  stepStatus_fits _ h := nomatch h
  token_fits _ h := nomatch h

variable {m}

/-- An instance stands in the row of its number. -/
theorem find?_instanceTable (id : InstanceId) :
    m.instanceTable.find? (id.number : Int) = (m.instance? id).map instanceRow :=
  lookup_rowsOf id

/-- An execution stands in the row of its number. -/
theorem find?_executionTable (id : ExecutionId) :
    m.executionTable.find? (id.number : Int) = (m.execution? id).map executionRow :=
  lookup_rowsOf id

/-- A step execution stands in the row of its number. -/
theorem find?_stepTable (id : StepId) :
    m.stepTable.find? (id.number : Int) = (m.step? id).map stepRow :=
  lookup_rowsOf id

/-- A status record stands in the row of its instance, though it was not added in the order of
numbers. -/
theorem WellFormed.find?_jobStatusTable (h : WellFormed m) (id : InstanceId) :
    m.jobStatusTable.find? (id.number : Int) = (m.jobStatus? id).map recordCell := by
  rw [Table.find?, jobStatusTable, lookup_sortRows (distinctKeys_rowsOf h.jobStatuses_distinct)]
  exact lookup_rowsOf id

/-- The status record of a step stands in the row of its step execution. -/
theorem WellFormed.find?_stepStatusTable (h : WellFormed m) (id : StepId) :
    m.stepStatusTable.find? (id.number : Int) = (m.stepStatus? id).map recordCell := by
  rw [Table.find?, stepStatusTable, lookup_sortRows (distinctKeys_rowsOf h.stepStatuses_distinct)]
  exact lookup_rowsOf id

/-- The instance that an execution belongs to is that of its row. -/
theorem owner?_executionRow (e : JobExecution) :
    Database.owner? m.instanceTable (executionRow e) =
      (m.instance? e.instanceId).map instanceRow :=
  find?_instanceTable e.instanceId

/-- The execution that a step execution belongs to is that of its row. -/
theorem ownerOfStep?_stepRow (s : StepExecution) :
    Database.ownerOfStep? m.executionTable (stepRow s) =
      (m.execution? s.executionId).map fun e => ((s.executionId.number : Int), executionRow e) := by
  change (m.executionTable.find? (s.executionId.number : Int)).map _ = _
  rw [find?_executionTable, Option.map_map]
  rfl

/-- A token stands in a frame beside its key. -/
theorem lookup_checkpointRows (rows : List (String × Option Octets)) (key : String) :
    (rows.map checkpointRow).lookup (.text key) =
      (rows.lookup key).map fun token => .blob (Frame.framed token) := by
  induction rows with
  | nil => rfl
  | cons row rest ih =>
    rw [List.map_cons, checkpointRow, List.lookup_cons, List.lookup_cons, ih]
    by_cases hkey : key = row.1
    · simp [hkey]
    · have hne : (key == row.1) = false := by simpa using hkey
      have hcell : ((Cell.text key) == .text row.1) = false := by simpa using hkey
      rw [hne, hcell]

end Memory

end JobLedger
