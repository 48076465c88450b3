import JobLedger.Proofs.Durable.Purge

/-!
# Changes of a database that holds a ledger

A change of the database that holds a ledger ends in the database that holds the changed ledger,
with the same answer. It fails as the change of the ledger does, and besides only where what the
ledger would hold then cannot be stored.
-/

namespace JobLedger

open Text

/-- A change of a database follows a change of the ledger that it holds. -/
inductive Follows {α : Type} :
    Except StoreError (α × Database) → Except LedgerError (α × Memory) → Prop where
  | ok {a : α} {next : Memory} (hs : next.Storable) : Follows (.ok (a, next.database)) (.ok (a, next))
  | error {e : StoreError} : Follows (.error e) (.error e.toLedger)
  /-- What the ledger would hold cannot be stored. -/
  | full {e : StoreError} {a : α} {next : Memory} (hs : ¬ next.Storable) :
    Follows (.error e) (.ok (a, next))

namespace Memory

variable {m : Memory}

/-! ## What can be stored afterwards -/

namespace Storable

variable (hs : Storable m)

include hs

/-- An instance may be added as long as its number fits a row. -/
theorem addInstance {i : JobInstance} (hroom : (i.id.number : Int) < signedLimit) :
    Storable { m with lastInstance := i.id.number, instances := m.instances ++ [i] } :=
  { hs with lastInstance_lt := hroom }

/-- An execution may be added as long as its number fits a row and its parameters fit a frame. -/
theorem addExecution {e : JobExecution} (hroom : (e.id.number : Int) < signedLimit)
    (hparameters : HasBlob e.parameters) :
    Storable { m with lastExecution := e.id.number, executions := m.executions ++ [e] } :=
  { hs with
    lastExecution_lt := hroom
    parameters_fit :=
      List.forall_mem_append.mpr ⟨hs.parameters_fit, List.forall_mem_singleton.mpr hparameters⟩ }

/-- A step execution may be added as long as its number fits a row and its data fit a frame. -/
theorem addStep {s : StepExecution} (hroom : (s.id.number : Int) < signedLimit)
    (huserData : Frame.Fits s.userData) :
    Storable { m with lastStep := s.id.number, steps := m.steps ++ [s] } :=
  { hs with
    lastStep_lt := hroom
    userData_fits :=
      List.forall_mem_append.mpr ⟨hs.userData_fits, List.forall_mem_singleton.mpr huserData⟩ }

/-- An execution may change as long as its parameters stay. -/
theorem modifyExecution (id : ExecutionId) {f : JobExecution → JobExecution}
    (hparameters : ∀ e, (f e).parameters = e.parameters) : Storable (m.modifyExecution id f) :=
  { hs with
    parameters_fit := forall_changeRow JobExecution.id hs.parameters_fit
      fun e _ he => by rwa [hparameters] }

/-- A step execution may change as long as its data fit a frame. -/
theorem modifyStep (id : StepId) {f : StepExecution → StepExecution}
    (huserData : ∀ s, Frame.Fits (f s).userData) : Storable (m.modifyStep id f) :=
  { hs with
    userData_fits := forall_changeRow StepExecution.id hs.userData_fits
      fun s _ _ => huserData s }

/-- A status record may be added if it fits a frame. -/
theorem addJobStatus {status : JobStatus} (hstatus : HasBlob status) :
    Storable { m with jobStatuses := m.jobStatuses ++ [status] } :=
  { hs with
    jobStatus_fits :=
      List.forall_mem_append.mpr ⟨hs.jobStatus_fits, List.forall_mem_singleton.mpr hstatus⟩ }

/-- The status record of a step may be added if it fits a frame. -/
theorem addStepStatus {status : StepStatus} (hstatus : HasBlob status) :
    Storable { m with stepStatuses := m.stepStatuses ++ [status] } :=
  { hs with
    stepStatus_fits :=
      List.forall_mem_append.mpr ⟨hs.stepStatus_fits, List.forall_mem_singleton.mpr hstatus⟩ }

/-- A status record may be replaced by one that fits a frame. -/
theorem setJobStatus {status : JobStatus} (hstatus : HasBlob status) :
    Storable (m.setJobStatus status) :=
  { hs with
    jobStatus_fits := forall_changeRow JobStatus.instanceId (f := fun _ => status)
      hs.jobStatus_fits fun _ _ _ => hstatus }

/-- The status record of a step may be replaced by one that fits a frame. -/
theorem setStepStatus {status : StepStatus} (hstatus : HasBlob status) :
    Storable (m.setStepStatus status) :=
  { hs with
    stepStatus_fits := forall_changeRow StepStatus.statusId (f := fun _ => status)
      hs.stepStatus_fits fun _ _ _ => hstatus }

/-- What is left behind a purge can be held as before. -/
theorem remaining (tag : String) : Storable (m.remaining tag) where
  lastInstance_lt := hs.lastInstance_lt
  lastExecution_lt := hs.lastExecution_lt
  lastStep_lt := hs.lastStep_lt
  parameters_fit e he := hs.parameters_fit e (List.mem_filter.mp he).1
  userData_fits s hstep := hs.userData_fits s (List.mem_filter.mp hstep).1
  jobStatus_fits status hstatus := hs.jobStatus_fits status (List.mem_filter.mp hstatus).1
  stepStatus_fits status hstatus := hs.stepStatus_fits status (List.mem_filter.mp hstatus).1
  token_fits row hrow := hs.token_fits row (List.mem_filter.mp hrow).1

end Storable

/-! ## New rows -/

section NewRow

variable {α ρ : Type} {entity : Entity} {key : α → Id entity} {row : α → ρ} {records : List α}
  {last : Nat}

/-- A counter below the numbers of rows has a successor that is an identifier. -/
theorem exists_nextId (entity : Entity) (h : (last : Int) < signedLimit) :
    ∃ id : Id entity, nextId last = .ok id ∧ id.number = last + 1 := by
  have hsize : UInt64.size = 18446744073709551616 := rfl
  have hlimit : signedLimit = 9223372036854775808 := rfl
  have hlt : last + 1 < UInt64.size := by omega
  exact ⟨⟨last + 1, Nat.succ_pos _, hlt⟩, nextId_eq_ok_iff.mpr rfl, rfl⟩

/-- The next row has the number of the next identifier, if that is the number of a row. -/
theorem nextRow?_table (hle : ∀ a ∈ records, (key a).number ≤ last) {id : Id entity}
    (hid : id.number = last + 1) :
    (Table.mk (rowsOf key row records) last).nextRow? =
      if (id.number : Int) < signedLimit then some (id.number : Int) else none := by
  have hlast : Table.lastRow = 9223372036854775807 := rfl
  have hlimit : signedLimit = 9223372036854775808 := rfl
  have hnumber : (last : Int) + 1 = id.number := by omega
  have hroom : (last : Int) < Table.lastRow ↔ (id.number : Int) < signedLimit := by omega
  rw [nextRow?_rowsOf hle, hnumber]
  exact ite_congr (propext hroom) (fun _ => rfl) fun _ => rfl

/-- A record under the next number has the last row. -/
theorem append_rowsOf (key : α → Id entity) (row : α → ρ) (records : List α) (last : Nat) (a : α) :
    (Table.mk (rowsOf key row records) last).append (key a).number (row a) =
      ⟨rowsOf key row (records ++ [a]), (key a).number⟩ := by
  rw [rowsOf_append]
  rfl

/-- Changing the row of an identifier in a table. -/
theorem modify_table (key : α → Id entity) (row : α → ρ) (records : List α) (high : Int)
    (id : Id entity) {f : ρ → ρ} {g : α → α}
    (hkey : ∀ a, key a = id → key (g a) = key a) (hrow : ∀ a, key a = id → row (g a) = f (row a)) :
    (Table.mk (rowsOf key row records) high).modify id.number f =
      ⟨rowsOf key row (changeRow key id g records), high⟩ :=
  congrArg (Table.mk · high) (modify_rowsOf hkey hrow)

end NewRow

/-- A row is missing if the instance is. -/
theorem isNone_find?_instanceTable (id : InstanceId) :
    (m.instanceTable.find? (id.number : Int)).isNone = (m.instance? id).isNone := by
  rw [find?_instanceTable, Option.isNone_map]

/-- A row is missing if the execution is. -/
theorem isNone_find?_executionTable (id : ExecutionId) :
    (m.executionTable.find? (id.number : Int)).isNone = (m.execution? id).isNone := by
  rw [find?_executionTable, Option.isNone_map]

/-! ## Changes of the history -/

section History

variable (h : WellFormed m) (hs : Storable m)

include h hs

/-- An instance is inserted in the row of the next number. -/
theorem follows_createInstance (name appTag : String) (definition : Option String) :
    Follows ((Database.createInstance name appTag definition m.database).map fun result =>
        (⟨result.1, name, appTag, definition⟩, result.2))
      (m.createInstance name appTag definition) := by
  obtain ⟨id, hid, hnumber⟩ := exists_nextId .jobInstance hs.lastInstance_lt
  rw [createInstance, hid, ok_bind, Database.createInstance]
  dsimp only
  rw [need_instances, ok_bind, instanceTable]
  by_cases hroom : (id.number : Int) < signedLimit
  · have hrow := append_rowsOf JobInstance.id instanceRow m.instances m.lastInstance
      ⟨id, name, appTag, definition⟩
    rw [instanceRow] at hrow
    dsimp only at hrow
    rw [nextRow?_table h.instance_le hnumber, if_pos hroom, need_some, ok_bind,
      idOfRow_number, ok_bind, hrow]
    exact .ok (hs.addInstance (i := ⟨id, name, appTag, definition⟩) hroom)
  · rw [nextRow?_table h.instance_le hnumber, if_neg hroom, need_none]
    exact .full fun hnext => hroom hnext.lastInstance_lt

/-- An execution is inserted in the row of the next number, or its instance is missing as in memory.
-/
theorem follows_createExecution (id : InstanceId) {parameters : JobParameters}
    (hparameters : HasBlob parameters) (status : BatchStatus) (time : Timestamp) :
    Follows (Database.createExecution id id.number (blob parameters) status time m.database)
      (m.createExecution id parameters status time) := by
  rw [Database.createExecution, createExecution]
  dsimp only
  rw [need_instances, ok_bind, isNone_find?_instanceTable]
  cases hi : m.instance? id with
  | none => exact .error
  | some i =>
    obtain ⟨execution, hid, hnumber⟩ := exists_nextId .jobExecution hs.lastExecution_lt
    dsimp only
    rw [hid, ok_bind, Option.isNone_some, if_neg Bool.false_ne_true, need_executions, ok_bind,
      executionTable]
    by_cases hroom : (execution.number : Int) < signedLimit
    · have hrow := append_rowsOf JobExecution.id executionRow m.executions m.lastExecution
        ⟨execution, id, i.name, time, none, none, time, status, none, parameters⟩
      rw [executionRow] at hrow
      dsimp only [Cell.ofOption] at hrow
      rw [nextRow?_table h.execution_le hnumber, if_pos hroom, need_some, ok_bind,
        idOfRow_number, ok_bind, hrow]
      exact .ok (hs.addExecution
        (e := ⟨execution, id, i.name, time, none, none, time, status, none, parameters⟩) hroom
        hparameters)
    · rw [nextRow?_table h.execution_le hnumber, if_neg hroom, need_none]
      exact .full fun hnext => hroom hnext.lastExecution_lt

omit h in
/-- A change of an execution that leaves what it is and its parameters. -/
theorem follows_changeExecution (operation : String) (id : ExecutionId)
    {f : ExecutionRow → ExecutionRow} {g : JobExecution → JobExecution}
    (hid : ∀ e, (g e).id = e.id) (hrow : ∀ e, executionRow (g e) = f (executionRow e))
    (hparameters : ∀ e, (g e).parameters = e.parameters) :
    Follows (Database.changeExecution operation id id.number f m.database)
      (m.changeExecution id g) := by
  rw [Database.changeExecution, changeExecution, need_executions, ok_bind,
    isNone_find?_executionTable, execution_eq]
  cases m.execution? id with
  | none => exact .error
  | some e =>
    have htable := modify_table JobExecution.id executionRow m.executions m.lastExecution id
      (fun e _ => hid e) fun e _ => hrow e
    rw [Option.isNone_some, if_neg Bool.false_ne_true, executionTable, htable]
    exact .ok (hs.modifyExecution id hparameters)

/-- A step execution is inserted in the row of the next number, or its execution is missing as in
memory. -/
theorem follows_createStep (id : ExecutionId) (step : String) (metrics : StepMetrics)
    (time : Timestamp) :
    Follows (Database.createStep id id.number step (countCells metrics) (Frame.framed none) time
      m.database) (m.createStep id step metrics time) := by
  rw [Database.createStep, createStep]
  dsimp only
  rw [need_executions, ok_bind, isNone_find?_executionTable, execution_eq]
  cases m.execution? id with
  | none => exact .error
  | some e =>
    obtain ⟨stepId, hid, hnumber⟩ := exists_nextId .stepExecution hs.lastStep_lt
    have hfound : discard (Except.ok e : Except LedgerError JobExecution) = .ok () := rfl
    dsimp only
    rw [hfound, ok_bind, hid, ok_bind, Option.isNone_some, if_neg Bool.false_ne_true, need_steps,
      ok_bind, stepTable]
    by_cases hroom : (stepId.number : Int) < signedLimit
    · have hrow := append_rowsOf StepExecution.id stepRow m.steps m.lastStep
        ⟨stepId, id, step, .starting, none, metrics, time, none, none⟩
      rw [stepRow] at hrow
      dsimp only [Cell.ofOption] at hrow
      rw [nextRow?_table h.step_le hnumber, if_pos hroom, need_some, ok_bind,
        idOfRow_number, ok_bind, hrow]
      exact .ok (hs.addStep
        (s := ⟨stepId, id, step, .starting, none, metrics, time, none, none⟩) hroom fits_none)
    · rw [nextRow?_table h.step_le hnumber, if_neg hroom, need_none]
      exact .full fun hnext => hroom hnext.lastStep_lt

omit h hs in
/-- The row of a step execution after an update is that of the updated record. -/
theorem stepRow_apply (update : StepUpdate) (s : StepExecution) :
    stepRow (update.apply s) =
      Database.updatedStep (countCells update.metrics) (Frame.framed update.userData) update
        (stepRow s) := by
  obtain ⟨metrics, userData, status, exitStatus, endTime⟩ := update
  cases status <;> cases exitStatus <;> cases endTime <;> rfl

/-- A step execution is changed unless its execution has ended, as in memory. -/
theorem follows_updateStep (id : StepId) {update : StepUpdate}
    (huserData : Frame.Fits update.userData) :
    Follows (Database.updateStep id id.number (countCells update.metrics)
      (Frame.framed update.userData) update m.database) (m.updateStep id update) := by
  rw [Database.updateStep, updateStep, need_steps, ok_bind, need_executions, ok_bind, find?_stepTable]
  cases hstep : m.step? id with
  | none => exact .error
  | some s =>
    obtain ⟨owner, howner⟩ := h.exists_execution (h.step?_eq_some_iff.mp hstep).1
    obtain ⟨-, hid⟩ := h.execution?_eq_some_iff.mp howner
    have hlabel : (executionRow owner).status.readText "update step execution" =
      .ok owner.status.label := rfl
    rw [Option.map_some, Option.bind_some, ownerOfStep?_stepRow, howner, Option.map_some]
    dsimp only
    rw [hlabel, ok_bind, storedStatus_label, ok_bind, execution_eq, howner]
    dsimp only
    rw [ok_bind]
    cases hended : owner.status.isTerminal with
    | true =>
      rw [if_pos rfl, if_pos rfl, ← hid]
      exact .error
    | false =>
      have htable := modify_table StepExecution.id stepRow m.steps m.lastStep id (g := update.apply)
        (fun _ _ => rfl) fun s _ => stepRow_apply update s
      rw [if_neg Bool.false_ne_true, if_neg Bool.false_ne_true, stepTable, htable]
      exact .ok (hs.modifyStep id fun _ => huserData)

/-- Purging takes the rows of those records that go in memory, and counts the same. -/
theorem follows_purge (tag : String) :
    Follows (Database.purge tag m.database) (.ok (m.purge tag)) := by
  rw [h.purge_eq, purge_database tag h]
  exact .ok (hs.remaining tag)

end History

end Memory

end JobLedger
