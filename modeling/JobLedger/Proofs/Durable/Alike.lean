import JobLedger.Proofs.Durable.Schema
import JobLedger.Proofs.Recording

/-!
# Stores with the same database

Two states may keep the same database in different ways. As long as its schema is complete, and as
long as nothing is in the way that is in the way of one of them only, they answer every call alike,
whatever is in the tables: the answer to a call is that of its statement, and the database that the
call leaves is the one that its statement gives. No statement takes a part of the schema away.
-/

namespace JobLedger

open JobLedger.Action Text

namespace Database

/-! ## Statements keep the schema -/

/-- A change that is made for an operation leaves a complete schema complete. -/
def KeepsSchema {α : Type} (update : Database → Except StoreError (α × Database)) : Prop :=
  ∀ db a next, update db = .ok (a, next) → db.IsComplete → next.IsComplete

variable {db : Database}

namespace IsComplete

variable (h : db.IsComplete)

include h

/-- A schema stays complete as long as nothing of it goes and its version stays. -/
theorem of_isIn {next : Database} (hversions : next.versions = db.versions)
    (hin : ∀ o : SchemaObject, o.isIn db = true → o.isIn next = true) : next.IsComplete where
  isIn o := hin o (h.isIn o)
  version := by
    rw [recordedVersion?, hversions]
    exact h.version

theorem setInstances (t : Table InstanceRow) : { db with instances := some t }.IsComplete :=
  h.of_isIn rfl fun o hin => by cases o <;> first | rfl | exact hin

theorem setExecutions (t : Table ExecutionRow) : { db with executions := some t }.IsComplete :=
  h.of_isIn rfl fun o hin => by cases o <;> first | rfl | exact hin

theorem setSteps (t : Table StepRow) : { db with steps := some t }.IsComplete :=
  h.of_isIn rfl fun o hin => by cases o <;> first | rfl | exact hin

theorem setJobStatuses (t : Table Cell) : { db with jobStatuses := some t }.IsComplete :=
  h.of_isIn rfl fun o hin => by cases o <;> first | rfl | exact hin

theorem setStepStatuses (t : Table Cell) : { db with stepStatuses := some t }.IsComplete :=
  h.of_isIn rfl fun o hin => by cases o <;> first | rfl | exact hin

theorem setCheckpoints (t : List (Cell × Cell)) : { db with checkpoints := some t }.IsComplete :=
  h.of_isIn rfl fun o hin => by cases o <;> first | rfl | exact hin

/-- The database without a schema has no complete one. -/
theorem ne_blank : db ≠ .blank := by
  rintro rfl
  exact nomatch h.isIn .instances

end IsComplete

/-- Adding an instance replaces one table by another. -/
theorem keepsSchema_createInstance (name appTag : String) (definition : Option String) :
    KeepsSchema (createInstance name appTag definition) := by
  intro db id next h hcomplete
  obtain ⟨instances, -, h⟩ := bind_eq_ok_iff.mp h
  obtain ⟨row, -, h⟩ := bind_eq_ok_iff.mp h
  obtain ⟨made, -, h⟩ := bind_eq_ok_iff.mp h
  rw [← (Prod.mk.inj (Except.ok.inj h)).2]
  exact hcomplete.setInstances _

/-- Adding an execution replaces one table by another. -/
theorem keepsSchema_createExecution (id : InstanceId) (row : Int) (parameters : Octets)
    (status : BatchStatus) (time : Timestamp) :
    KeepsSchema (createExecution id row parameters status time) := by
  intro db made next h hcomplete
  obtain ⟨instances, -, h⟩ := bind_eq_ok_iff.mp h
  split at h
  · exact nomatch h
  · obtain ⟨executions, -, h⟩ := bind_eq_ok_iff.mp h
    obtain ⟨row, -, h⟩ := bind_eq_ok_iff.mp h
    obtain ⟨made, -, h⟩ := bind_eq_ok_iff.mp h
    rw [← (Prod.mk.inj (Except.ok.inj h)).2]
    exact hcomplete.setExecutions _

/-- Changing an execution replaces one table by another. -/
theorem keepsSchema_changeExecution (operation : String) (id : ExecutionId) (row : Int)
    (f : ExecutionRow → ExecutionRow) : KeepsSchema (changeExecution operation id row f) := by
  intro db u next h hcomplete
  obtain ⟨executions, -, h⟩ := bind_eq_ok_iff.mp h
  split at h
  · exact nomatch h
  · rw [← (Prod.mk.inj (Except.ok.inj h)).2]
    exact hcomplete.setExecutions _

/-- Adding a step execution replaces one table by another. -/
theorem keepsSchema_createStep (id : ExecutionId) (row : Int) (step : String)
    (counters : Counters Cell) (userData : Octets) (time : Timestamp) :
    KeepsSchema (createStep id row step counters userData time) := by
  intro db made next h hcomplete
  obtain ⟨executions, -, h⟩ := bind_eq_ok_iff.mp h
  split at h
  · exact nomatch h
  · obtain ⟨steps, -, h⟩ := bind_eq_ok_iff.mp h
    obtain ⟨row, -, h⟩ := bind_eq_ok_iff.mp h
    obtain ⟨made, -, h⟩ := bind_eq_ok_iff.mp h
    rw [← (Prod.mk.inj (Except.ok.inj h)).2]
    exact hcomplete.setSteps _

/-- Changing a step execution replaces one table by another. -/
theorem keepsSchema_updateStep (id : StepId) (row : Int) (counters : Counters Cell)
    (userData : Octets) (update : StepUpdate) :
    KeepsSchema (updateStep id row counters userData update) := by
  intro db u next h hcomplete
  obtain ⟨steps, -, h⟩ := bind_eq_ok_iff.mp h
  obtain ⟨executions, -, h⟩ := bind_eq_ok_iff.mp h
  split at h
  · exact nomatch h
  · obtain ⟨text, -, h⟩ := bind_eq_ok_iff.mp h
    obtain ⟨status, -, h⟩ := bind_eq_ok_iff.mp h
    split at h
    · exact nomatch h
    · rw [← (Prod.mk.inj (Except.ok.inj h)).2]
      exact hcomplete.setSteps _

/-- Purging checkpoint rows leaves their table, even if no row stays. -/
theorem isComplete_purgeCheckpoints {rows : List Int} {next : Database}
    (h : purgeCheckpoints rows db = .ok next) (hcomplete : db.IsComplete) : next.IsComplete := by
  induction rows generalizing db with
  | nil => exact Except.ok.inj h ▸ hcomplete
  | cons row rest ih =>
    obtain ⟨id, -, h⟩ := bind_eq_ok_iff.mp h
    obtain ⟨checkpoints, -, h⟩ := bind_eq_ok_iff.mp h
    exact ih h (hcomplete.setCheckpoints _)

/-- Purging takes rows away, and no table. -/
theorem keepsSchema_purge (appTag : String) : KeepsSchema (purge appTag) := by
  intro db summary next h hcomplete
  obtain ⟨instances, -, h⟩ := bind_eq_ok_iff.mp h
  obtain ⟨stepStatuses, -, h⟩ := bind_eq_ok_iff.mp h
  obtain ⟨steps, -, h⟩ := bind_eq_ok_iff.mp h
  obtain ⟨executions, -, h⟩ := bind_eq_ok_iff.mp h
  obtain ⟨jobStatuses, -, h⟩ := bind_eq_ok_iff.mp h
  obtain ⟨purged, hpurged, h⟩ := bind_eq_ok_iff.mp h
  have hrest := isComplete_purgeCheckpoints hpurged hcomplete
  rw [← (Prod.mk.inj (Except.ok.inj h)).2]
  exact ((((hrest.setInstances _).setExecutions _).setSteps _).setJobStatuses _).setStepStatuses _

/-- Adding the status record of an instance replaces one table by another. -/
theorem keepsSchema_createJobStatus (id : InstanceId) (row : Int) (blob : Octets) :
    KeepsSchema (createJobStatus id row blob) := by
  intro db u next h hcomplete
  obtain ⟨hasInstance, -, h⟩ := bind_eq_ok_iff.mp h
  split at h
  · exact nomatch h
  · obtain ⟨hasStatus, -, h⟩ := bind_eq_ok_iff.mp h
    split at h
    · exact nomatch h
    · obtain ⟨jobStatuses, -, h⟩ := bind_eq_ok_iff.mp h
      rw [← (Prod.mk.inj (Except.ok.inj h)).2]
      exact hcomplete.setJobStatuses _

/-- Replacing the status record of an instance replaces one table by another. -/
theorem keepsSchema_updateJobStatus (id : InstanceId) (row : Int) (blob : Octets) :
    KeepsSchema (updateJobStatus id row blob) := by
  intro db u next h hcomplete
  obtain ⟨t, -, h⟩ := bind_eq_ok_iff.mp h
  rw [← (Prod.mk.inj (Except.ok.inj h)).2]
  exact hcomplete.setJobStatuses _

/-- Adding the status record of a step replaces one table by another. -/
theorem keepsSchema_createStepStatus (id : StepId) (row : Int) (blob : Octets) :
    KeepsSchema (createStepStatus id row blob) := by
  intro db u next h hcomplete
  obtain ⟨hasStep, -, h⟩ := bind_eq_ok_iff.mp h
  split at h
  · exact nomatch h
  · obtain ⟨hasStatus, -, h⟩ := bind_eq_ok_iff.mp h
    split at h
    · exact nomatch h
    · obtain ⟨stepStatuses, -, h⟩ := bind_eq_ok_iff.mp h
      rw [← (Prod.mk.inj (Except.ok.inj h)).2]
      exact hcomplete.setStepStatuses _

/-- Replacing the status record of a step replaces one table by another. -/
theorem keepsSchema_updateStepStatus (id : StepId) (row : Int) (blob : Octets) :
    KeepsSchema (updateStepStatus id row blob) := by
  intro db u next h hcomplete
  obtain ⟨t, -, h⟩ := bind_eq_ok_iff.mp h
  rw [← (Prod.mk.inj (Except.ok.inj h)).2]
  exact hcomplete.setStepStatuses _

/-- Counting a start replaces one table by another. -/
theorem keepsSchema_incrementStartCount (id : StepId) (row : Int) :
    KeepsSchema (incrementStartCount id row) := by
  intro db count next h hcomplete
  obtain ⟨stepStatuses, -, h⟩ := bind_eq_ok_iff.mp h
  split at h
  · exact nomatch h
  · obtain ⟨source, -, h⟩ := bind_eq_ok_iff.mp h
    obtain ⟨status, -, h⟩ := bind_eq_ok_iff.mp h
    split at h
    · obtain ⟨blob, -, h⟩ := bind_eq_ok_iff.mp h
      rw [← (Prod.mk.inj (Except.ok.inj h)).2]
      exact hcomplete.setStepStatuses _
    · exact nomatch h

/-- Adding a pair replaces one table by another. -/
theorem keepsSchema_createPair (id : InstanceId) (step : String) (blob : Octets) :
    KeepsSchema (createPair id step blob) := by
  intro db u next h hcomplete
  obtain ⟨checkpoints, -, h⟩ := bind_eq_ok_iff.mp h
  split at h
  · exact nomatch h
  · rw [← (Prod.mk.inj (Except.ok.inj h)).2]
    exact hcomplete.setCheckpoints _

/-- Replacing a pair replaces one table by another. -/
theorem keepsSchema_updatePair (id : InstanceId) (step : String) (reader writer : Octets) :
    KeepsSchema (updatePair id step reader writer) := by
  intro db u next h hcomplete
  obtain ⟨checkpoints, -, h⟩ := bind_eq_ok_iff.mp h
  split at h
  · exact nomatch h
  · rw [← (Prod.mk.inj (Except.ok.inj h)).2]
    exact hcomplete.setCheckpoints _

/-! ## Calls are answered alike -/

/-- In states that correspond readers and writers find the same, and what a writer finds has a
complete schema. Writing the same, and taking the turn of a reader, leads to states that
correspond. -/
structure Alike {σ τ : Type} [KeepsDatabase σ] [KeepsDatabase τ] (R : σ → τ → Prop) : Prop where
  readable {s : σ} {t : τ} : R s t → ∀ operation,
    KeepsDatabase.readable s operation = KeepsDatabase.readable t operation
  isReady {s : σ} {t : τ} : R s t → ∀ operation,
    KeepsDatabase.isReady s operation = KeepsDatabase.isReady t operation
  writable {s : σ} {t : τ} : R s t → ∀ operation,
    KeepsDatabase.writable s operation = KeepsDatabase.writable t operation
  isComplete {s : σ} {t : τ} : R s t → ∀ operation found,
    KeepsDatabase.writable t operation = .ok found → found.IsComplete
  keep {s : σ} {t : τ} : R s t → ∀ next : Database, next.IsComplete →
    R (KeepsDatabase.keep s next) (KeepsDatabase.keep t next)
  turn {s : σ} {t : τ} : R s t → R (KeepsDatabase.turn s) (KeepsDatabase.turn t)

namespace Alike

variable {σ τ α : Type} [KeepsDatabase σ] [KeepsDatabase τ] {R : σ → τ → Prop} (hR : Alike R)

include hR

/-- Readers of both states find the same, and have their turns alike. -/
theorem simulates_read (operation : String) (query : Database → Except StoreError α) :
    Simulates R (read operation query : Action StoreError σ α) (read operation query) := by
  intro s t h
  exact ⟨congrArg (· >>= query) (hR.readable h operation), hR.turn h⟩

/-- A number is out of range on both sides or on none. -/
theorem simulates_readRow {entity : Entity} (operation : String) (id : Id entity)
    (query : Int → Database → Except StoreError α) :
    Simulates R (readRow operation id query : Action StoreError σ α) (readRow operation id query) :=
  (Simulates.ofExcept _).bind fun _ => hR.simulates_read operation _

/-- Writers of both states find the same, and leave the same behind. -/
theorem simulates_write (operation : String)
    {update : Database → Except StoreError (α × Database)} (hupdate : KeepsSchema update) :
    Simulates R (write operation update : Action StoreError σ α) (write operation update) := by
  intro s t h
  have hfound := hR.writable h operation
  rw [write, write, change, change, hfound]
  cases hwritable : KeepsDatabase.writable t operation with
  | error e => exact ⟨rfl, h⟩
  | ok found =>
    rw [ok_bind, ok_bind]
    cases hnext : update found with
    | error e => exact ⟨rfl, h⟩
    | ok result =>
      have hcomplete := hupdate found result.1 result.2 hnext (hR.isComplete h operation found hwritable)
      exact ⟨rfl, hR.keep h result.2 hcomplete⟩

/-- States that are alike answer every stored call alike, and are alike afterwards. -/
theorem simulates_performStored (call : Call) :
    Simulates R (performStored call : Action StoreError σ call.Answer) (performStored call) := by
  cases call with
  | readiness => exact fun s t h => ⟨hR.isReady h _, hR.turn h⟩
  | partitionMetrics root step =>
    exact (hR.simulates_read _ _).bind fun _ => (Simulates.report _).bind fun _ => .answer _
  | countInstances | pageInstances | externalInstances | runningExecutions | findPair =>
    exact hR.simulates_read _ _
  | findInstance | tagOfInstance | findExecution | executionsOf | instanceOf | parametersOf
  | tagOfExecution | latestExecution | findStep | stepsOf | recentSteps | findJobStatus
  | jobStatusOf | findStepStatus =>
    exact hR.simulates_readRow _ _ _
  | createInstance | createPartition =>
    exact (hR.simulates_write _ (keepsSchema_createInstance _ _ _)).bind fun _ =>
      (Simulates.report _).bind fun _ => .answer _
  | purge appTag =>
    exact (hR.simulates_write _ (keepsSchema_purge appTag)).bind fun _ =>
      (Simulates.report _).bind fun _ => .answer _
  | createExecution id parameters status time =>
    exact (Simulates.ofExcept _).bind fun _ => (Simulates.ofExcept _).bind fun _ =>
      (hR.simulates_write _ (keepsSchema_createExecution _ _ _ _ _)).bind fun _ =>
        (Simulates.report _).bind fun _ => .answer _
  | markStarted | setExecutionStatus | finalizeExecution =>
    exact (Simulates.ofExcept _).bind fun _ =>
      (hR.simulates_write _ (keepsSchema_changeExecution _ _ _ _)).bind fun _ => .report _
  | createStep id step metrics time =>
    exact (Simulates.ofExcept _).bind fun _ => (Simulates.ofExcept _).bind fun _ =>
      (Simulates.ofExcept _).bind fun _ =>
        (hR.simulates_write _ (keepsSchema_createStep _ _ _ _ _ _)).bind fun _ =>
          (Simulates.report _).bind fun _ => .answer _
  | updateStep id update =>
    exact (Simulates.ofExcept _).bind fun _ => (Simulates.ofExcept _).bind fun _ =>
      (Simulates.ofExcept _).bind fun _ =>
        (hR.simulates_write _ (keepsSchema_updateStep _ _ _ _ _)).bind fun _ => .report _
  | createJobStatus id =>
    exact (Simulates.ofExcept _).bind fun _ => (Simulates.ofExcept _).bind fun _ =>
      (hR.simulates_write _ (keepsSchema_createJobStatus _ _ _)).bind fun _ =>
        (Simulates.report _).bind fun _ => .answer _
  | updateJobStatus status =>
    exact (Simulates.ofExcept _).bind fun _ => (Simulates.ofExcept _).bind fun _ =>
      hR.simulates_write _ (keepsSchema_updateJobStatus _ _ _)
  | createStepStatus id =>
    exact (Simulates.ofExcept _).bind fun _ => (Simulates.ofExcept _).bind fun _ =>
      (hR.simulates_write _ (keepsSchema_createStepStatus _ _ _)).bind fun _ =>
        (Simulates.report _).bind fun _ => .answer _
  | updateStepStatus status =>
    exact (Simulates.ofExcept _).bind fun _ => (Simulates.ofExcept _).bind fun _ =>
      hR.simulates_write _ (keepsSchema_updateStepStatus _ _ _)
  | incrementStartCount id =>
    exact (Simulates.ofExcept _).bind fun _ =>
      hR.simulates_write _ (keepsSchema_incrementStartCount _ _)
  | createPair id step =>
    exact (Simulates.ofExcept _).bind fun _ =>
      (hR.simulates_write _ (keepsSchema_createPair _ _ _)).bind fun _ => .report _
  | updatePair id step pair =>
    exact (Simulates.ofExcept _).bind fun _ => (Simulates.ofExcept _).bind fun _ =>
      hR.simulates_write _ (keepsSchema_updatePair _ _ _ _)

omit hR [KeepsDatabase σ] [KeepsDatabase τ] in
/-- What is checked in front of a call does not depend on the state. -/
theorem simulates_ensureCall (call : Call) :
    Simulates R (ensureCall call : Action LedgerError σ Unit) (ensureCall call) := by
  cases call with
  | createStep | createPair => exact simulates_ensureStepName _
  | _ => exact .answer ()

/-- Every call is answered alike. -/
theorem answersAlike (call : Call) : AnswersAlike R call :=
  (simulates_ensureCall call).bind fun _ => (hR.simulates_performStored call).mapError

end Alike

end Database

end JobLedger
