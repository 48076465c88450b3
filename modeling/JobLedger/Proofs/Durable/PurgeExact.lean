import JobLedger.Proofs.Durable.Purge
import JobLedger.Proofs.Memory.PurgeExact

/-!
# A purge of a database is exact

What belongs to a tag is said of the cells of a database as it is said of the records of a ledger. In
the database that holds a well-formed ledger, a purge removes exactly those rows from the tables,
counts them, and changes nothing else.
-/

namespace JobLedger

open Text

/-- What is removed from a list is removed from its image. -/
theorem Removes.map {α β : Type} {P : α → Prop} {Q : β → Prop} {f : α → β} {before after : List α}
    {count : Nat} (h : Removes P before after count) (hsame : ∀ a ∈ before, P a ↔ Q (f a)) :
    Removes Q (before.map f) (after.map f) count := by
  induction h with
  | nil => exact .nil
  | gone ha _ ih =>
    refine .gone ((hsame _ List.mem_cons_self).mp ha) (ih fun b hb => hsame b ?_)
    exact List.mem_cons_of_mem _ hb
  | kept ha _ ih =>
    refine .kept (fun hQ => ha ((hsame _ List.mem_cons_self).mpr hQ)) (ih fun b hb => hsame b ?_)
    exact List.mem_cons_of_mem _ hb

/-- Exactly the rows with a property are removed from a table that is there, and the table goes on
numbering behind the same row. -/
def Loses {ρ : Type} (P : Int × ρ → Prop) (before after : Option (Table ρ)) (count : Nat) : Prop :=
  ∃ t rest, before = some t ∧ after = some { t with rows := rest } ∧ Removes P t.rows rest count

/-- A table loses the rows that are removed, and as many as are counted. -/
theorem loses_remove {ρ : Type} {P : Int × ρ → Prop} {t : Table ρ} {goes : Int → ρ → Bool}
    (h : ∀ entry ∈ t.rows, goes entry.1 entry.2 = true ↔ P entry) :
    Loses P (some t) (some (t.remove goes)) (Database.goneRows t (t.remove goes)) := by
  refine ⟨t, _, rfl, rfl, ?_⟩
  rw [Database.goneRows, Table.remove, length_sub_length_filter]
  exact removes_filter h

namespace Database

variable (db : Database) (tag : String)

/-- The row of an instance that has a tag. -/
def HasTag (row : Int) : Prop :=
  ∃ t i, db.instances = some t ∧ (row, i) ∈ t.rows ∧ i.appTag = .text tag

/-- The row of an execution that belongs to an instance with a tag. -/
def ExecutionHasTag (row : Int) : Prop :=
  ∃ t e owner, db.executions = some t ∧ (row, e) ∈ t.rows ∧ e.instanceId = .int owner ∧
    db.HasTag tag owner

/-- The row of a step execution that belongs to an execution of an instance with a tag. -/
def StepHasTag (row : Int) : Prop :=
  ∃ t s owner, db.steps = some t ∧ (row, s) ∈ t.rows ∧ s.executionId = .int owner ∧
    db.ExecutionHasTag tag owner

/-- The cell of a checkpoint key that was built for an instance with a tag. -/
def KeyHasTag (key : Cell) : Prop :=
  ∃ (id : InstanceId) (step : String) (kind : CheckpointKind), db.HasTag tag id.number ∧
    key = .text (CheckpointKey.ofPair id step kind).encode

variable {db} {tag}

/-- Exactly what belongs to a tag is gone from one database to another, and so much it is. -/
structure Purges (db : Database) (tag : String) (summary : PurgeSummary) (next : Database) :
    Prop where
  instances : Loses (fun entry => entry.2.appTag = .text tag) db.instances next.instances
    summary.instances
  executions : Loses (fun entry => ∃ owner, entry.2.instanceId = .int owner ∧ db.HasTag tag owner)
    db.executions next.executions summary.executions
  steps : Loses
    (fun entry => ∃ owner, entry.2.executionId = .int owner ∧ db.ExecutionHasTag tag owner)
    db.steps next.steps summary.steps
  jobStatuses : Loses (fun entry => db.HasTag tag entry.1) db.jobStatuses next.jobStatuses
    summary.jobStatuses
  stepStatuses : Loses (fun entry => db.StepHasTag tag entry.1) db.stepStatuses next.stepStatuses
    summary.stepStatuses
  checkpoints : ∃ rows rest, db.checkpoints = some rows ∧ next.checkpoints = some rest ∧
    Removes (fun row => db.KeyHasTag tag row.1) rows rest summary.checkpoints
  versions : next.versions = db.versions
  indexes : next.indexes = db.indexes

end Database

namespace Memory

variable {m : Memory} {tag : String}

/-- The row of an instance has a tag if the instance has. -/
theorem hasTag_database_iff {id : InstanceId} :
    m.database.HasTag tag id.number ↔ m.HasTag tag id := by
  constructor
  · rintro ⟨t, i, ht, hmem, htag⟩
    obtain rfl := Option.some.inj ht
    obtain ⟨record, hrecord, hrow⟩ := List.mem_map.mp hmem
    obtain ⟨hnumber, rfl⟩ := Prod.mk.inj hrow
    exact ⟨record, hrecord, number_inj.mp hnumber, Cell.text.inj htag⟩
  · rintro ⟨i, hi, rfl, rfl⟩
    exact ⟨_, instanceRow i, rfl, List.mem_map_of_mem hi, rfl⟩

/-- The row of an execution belongs to a tag if the execution does. -/
theorem executionHasTag_database_iff {id : ExecutionId} :
    m.database.ExecutionHasTag tag id.number ↔ m.ExecutionHasTag tag id := by
  constructor
  · rintro ⟨t, e, owner, ht, hmem, howner, htag⟩
    obtain rfl := Option.some.inj ht
    obtain ⟨record, hrecord, hrow⟩ := List.mem_map.mp hmem
    obtain ⟨hnumber, rfl⟩ := Prod.mk.inj hrow
    obtain rfl := Cell.int.inj howner
    exact ⟨record, hrecord, number_inj.mp hnumber, hasTag_database_iff.mp htag⟩
  · rintro ⟨e, he, rfl, htag⟩
    exact ⟨_, executionRow e, _, rfl, List.mem_map_of_mem he, rfl, hasTag_database_iff.mpr htag⟩

/-- The row of a step execution belongs to a tag if the step execution does. -/
theorem stepHasTag_database_iff {id : StepId} :
    m.database.StepHasTag tag id.number ↔ m.StepHasTag tag id := by
  constructor
  · rintro ⟨t, s, owner, ht, hmem, howner, htag⟩
    obtain rfl := Option.some.inj ht
    obtain ⟨record, hrecord, hrow⟩ := List.mem_map.mp hmem
    obtain ⟨hnumber, rfl⟩ := Prod.mk.inj hrow
    obtain rfl := Cell.int.inj howner
    exact ⟨record, hrecord, number_inj.mp hnumber, executionHasTag_database_iff.mp htag⟩
  · rintro ⟨s, hs, rfl, htag⟩
    exact ⟨_, stepRow s, _, rfl, List.mem_map_of_mem hs, rfl,
      executionHasTag_database_iff.mpr htag⟩

/-- A key in a row belongs to a tag if the key does. -/
theorem keyHasTag_database_iff {key : String} :
    m.database.KeyHasTag tag (.text key) ↔ m.KeyHasTag tag key := by
  constructor
  · rintro ⟨id, step, kind, htag, hkey⟩
    exact ⟨id, step, kind, hasTag_database_iff.mp htag, Cell.text.inj hkey⟩
  · rintro ⟨id, step, kind, htag, rfl⟩
    exact ⟨id, step, kind, hasTag_database_iff.mpr htag, rfl⟩

/-- A row that is sorted among others is the row of a record. -/
theorem exists_of_mem_sortRows {α ρ : Type} {entity : Entity} {key : α → Id entity} {row : α → ρ}
    {records : List α} {entry : Int × ρ} (h : entry ∈ sortRows (rowsOf key row records)) :
    ∃ a ∈ records, numberedRow key row a = entry :=
  List.mem_map.mp ((sortRows_perm _).mem_iff.mp h)

/-- Between the databases of two ledgers the rows of a tag are gone as between the ledgers. -/
theorem WellFormed.purges_database (h : WellFormed m) (tag : String) :
    m.database.Purges tag (m.countTag tag) (m.remaining tag).database := by
  have hrows := h.purges tag
  rw [h.purge_eq] at hrows
  rw [← goneRows_eq]
  exact {
    instances := by
      change Loses _ (some m.instanceTable) (some (m.remaining tag).instanceTable) _
      rw [← remove_instances]
      exact loses_remove fun entry _ => decide_eq_true_iff
    executions := by
      change Loses _ (some m.executionTable) (some (m.remaining tag).executionTable) _
      rw [← remove_executions]
      refine loses_remove fun entry hentry => ?_
      obtain ⟨e, -, rfl⟩ := List.mem_map.mp hentry
      refine (Bool.eq_iff_iff.mp (any_numbersOf _ e.instanceId)).trans ?_
      rw [contains_instancesOf_iff, ← hasTag_database_iff]
      constructor
      · exact fun htag => ⟨_, rfl, htag⟩
      · rintro ⟨owner, howner, htag⟩
        exact Cell.int.inj howner ▸ htag
    steps := by
      change Loses _ (some m.stepTable) (some (m.remaining tag).stepTable) _
      rw [← remove_steps]
      refine loses_remove fun entry hentry => ?_
      obtain ⟨s, -, rfl⟩ := List.mem_map.mp hentry
      refine (Bool.eq_iff_iff.mp (any_numbersOf _ s.executionId)).trans ?_
      rw [contains_executionsOfTag_iff, ← executionHasTag_database_iff]
      constructor
      · exact fun htag => ⟨_, rfl, htag⟩
      · rintro ⟨owner, howner, htag⟩
        exact Cell.int.inj howner ▸ htag
    jobStatuses := by
      change Loses _ (some m.jobStatusTable) (some (m.remaining tag).jobStatusTable) _
      rw [← remove_jobStatuses tag h]
      refine loses_remove fun entry hentry => ?_
      obtain ⟨status, -, rfl⟩ := exists_of_mem_sortRows hentry
      refine (Bool.eq_iff_iff.mp (contains_numbersOf _ status.instanceId)).trans ?_
      rw [contains_instancesOf_iff, ← hasTag_database_iff]
      rfl
    stepStatuses := by
      change Loses _ (some m.stepStatusTable) (some (m.remaining tag).stepStatusTable) _
      rw [← remove_stepStatuses tag h]
      refine loses_remove fun entry hentry => ?_
      obtain ⟨status, -, rfl⟩ := exists_of_mem_sortRows hentry
      refine (Bool.eq_iff_iff.mp (contains_numbersOf _ status.statusId)).trans ?_
      rw [contains_stepsOfTag_iff, ← stepHasTag_database_iff]
      rfl
    checkpoints := by
      refine ⟨_, _, rfl, rfl, ?_⟩
      have hcheckpoints := hrows.checkpoints.map (f := checkpointRow)
        (Q := fun row => m.database.KeyHasTag tag row.1) fun row _ => keyHasTag_database_iff.symm
      have hcount := congrArg PurgeSummary.checkpoints (goneRows_eq (m := m) tag)
      dsimp only at hcount ⊢
      rwa [hcount]
    versions := rfl
    indexes := rfl }

end Memory

end JobLedger
