import JobLedger.Proofs.Durable.KeyPrefixes
import JobLedger.Proofs.Durable.StepQueries

/-!
# A purge of a database that holds a ledger

The database follows whom a row belongs to through its columns, by joins. In the database that
holds a ledger the rows that go are those that go in memory, and what is left is the database of
what is left of the ledger.
-/

namespace JobLedger

open Text

section Tables

variable {α ρ : Type} {entity : Entity} {key : α → Id entity} {row : α → ρ} {records : List α}
  {goes : Int → ρ → Bool} {p : α → Bool}

/-- The rows that are removed are those of the records that go. -/
theorem remove_rowsOf (high : Int) (h : ∀ a ∈ records, goes (key a).number (row a) = p a) :
    (Table.mk (rowsOf key row records) high).remove goes =
      ⟨rowsOf key row (records.filter fun a => !p a), high⟩ := by
  rw [Table.remove, filter_rowsOf]
  refine congrArg (fun kept => Table.mk (rowsOf key row kept) high) (List.filter_congr fun a ha => ?_)
  rw [numberedRow, h a ha]

/-- Rows are removed from a sorted table as the records are from their list. -/
theorem remove_sortRows (high : Int) (hdistinct : DistinctKeys key records)
    (h : ∀ a ∈ records, goes (key a).number (row a) = p a) :
    (Table.mk (sortRows (rowsOf key row records)) high).remove goes =
      ⟨sortRows (rowsOf key row (records.filter fun a => !p a)), high⟩ := by
  have hrows := congrArg Table.rows (remove_rowsOf high h)
  dsimp only [Table.remove] at hrows
  rw [Table.remove, filter_sortRows (distinctKeys_rowsOf hdistinct), hrows]

/-- Every record has one row. -/
theorem length_rowsOf : (rowsOf key row records).length = records.length := List.length_map _

/-- Sorting rows loses none. -/
theorem length_sortRows (rows : List (Int × ρ)) : (sortRows rows).length = rows.length :=
  (sortRows_perm rows).length_eq

/-- As many rows are gone as there are records that go. -/
theorem goneRows_rowsOf (high : Int) :
    Database.goneRows (Table.mk (rowsOf key row records) high)
        ⟨rowsOf key row (records.filter fun a => !p a), high⟩ =
      (records.filter p).length := by
  rw [Database.goneRows, length_rowsOf, length_rowsOf, length_sub_length_filter]

/-- As many rows of a sorted table are gone as there are records that go. -/
theorem goneRows_sortRows (high : Int) :
    Database.goneRows (Table.mk (sortRows (rowsOf key row records)) high)
        ⟨sortRows (rowsOf key row (records.filter fun a => !p a)), high⟩ =
      (records.filter p).length := by
  rw [Database.goneRows, length_sortRows, length_sortRows, length_rowsOf, length_rowsOf,
    length_sub_length_filter]

end Tables

/-- The numbers of identifiers, as those of rows. -/
def numbersOf {entity : Entity} (ids : List (Id entity)) : List Int :=
  ids.map fun id => (id.number : Int)

/-- A number is among those of identifiers if its identifier is among them. -/
theorem contains_numbersOf {entity : Entity} (ids : List (Id entity)) (id : Id entity) :
    (numbersOf ids).contains (id.number : Int) = ids.contains id := by
  rw [Bool.eq_iff_iff, List.contains_iff_mem, List.contains_iff_mem, numbersOf, List.mem_map]
  constructor
  · rintro ⟨other, hmem, hnumber⟩
    rwa [← number_inj.mp hnumber]
  · intro hmem
    exact ⟨id, hmem, rfl⟩

/-- A column refers to one of some rows. -/
theorem any_numbersOf {entity : Entity} (ids : List (Id entity)) (id : Id entity) :
    ((numbersOf ids).any fun row => decide (Cell.int id.number = .int row)) = ids.contains id := by
  rw [← contains_numbersOf, List.contains_eq_any_beq]
  refine congrArg (fun f => List.any _ f) (funext fun row => ?_)
  rw [Bool.eq_iff_iff]
  simp

/-- Rows that are joined with their owners and then chosen, where every row has an owner. -/
theorem map_filter_filterMap {α β γ δ : Type} {l : List α} (owner : α → Option β) {f : α → β → γ}
    {p : γ → Bool} {q : α → Bool} {g : γ → δ} {k : α → δ}
    (h : ∀ a ∈ l, ∃ b, owner a = some b ∧ p (f a b) = q a ∧ g (f a b) = k a) :
    ((l.filterMap fun a => (owner a).map (f a)).filter p).map g = (l.filter q).map k := by
  induction l with
  | nil => rfl
  | cons a rest ih =>
    obtain ⟨b, hb, hp, hg⟩ := h a List.mem_cons_self
    have hrest := ih fun c hc => h c (List.mem_cons_of_mem _ hc)
    rw [List.filterMap_cons, hb, Option.map_some, List.filter_cons, List.filter_cons, hp]
    cases q a with
    | true => simp [hrest, hg]
    | false => exact hrest

namespace Memory

variable {m : Memory} (tag : String)

/-- The key cells that begin with the prefix of an instance are those of the keys that do. -/
theorem filter_checkpointRows (id : InstanceId) (rows : List (String × Option Octets)) :
    ((rows.map checkpointRow).filter fun entry =>
        !Database.beginsWith (CheckpointKey.instancePrefix id) entry.1) =
      (rows.filter fun row =>
        !(CheckpointKey.instancePrefix id).toList.isPrefixOf row.1.toList).map checkpointRow := by
  rw [List.filter_map]
  refine congrArg (List.map checkpointRow) (List.filter_congr fun row _ => ?_)
  exact congrArg Bool.not
    (Database.beginsWith_text (CheckpointKey.nul_not_mem_instancePrefix id) row.1)

/-- Removing the checkpoints of one instance after the other removes those of all of them. -/
theorem purgeCheckpoints_eq (ids : List InstanceId) (rows : List (String × Option Octets))
    (db : Database) (hrows : db.checkpoints = some (rows.map checkpointRow)) :
    Database.purgeCheckpoints (numbersOf ids) db = .ok { db with
      checkpoints := some ((rows.filter fun row => !ids.any fun id =>
        (CheckpointKey.instancePrefix id).toList.isPrefixOf row.1.toList).map checkpointRow) } := by
  induction ids generalizing rows db with
  | nil =>
    have hall : (rows.filter fun _ => true) = rows := List.filter_eq_self.mpr fun _ _ => rfl
    simp only [numbersOf, List.map_nil, Database.purgeCheckpoints, List.any_nil, Bool.not_false,
      hall, ← hrows]
  | cons id rest ih =>
    have hcons : numbersOf (id :: rest) = (id.number : Int) :: numbersOf rest := rfl
    rw [hcons, Database.purgeCheckpoints, idOfRow_number, ok_bind, hrows, Database.need, ok_bind]
    dsimp only
    rw [filter_checkpointRows, ih _ _ rfl, List.filter_filter]
    simp only [List.any_cons, Bool.not_or, Bool.and_comm]

section Going

variable (h : WellFormed m)

/-- The rows of a tag have the numbers of its instances. -/
theorem numbers_tagged : ((m.instanceTable.rows.filter fun entry =>
    decide (entry.2.appTag = .text tag)).map Prod.fst) = numbersOf (m.instancesOf tag) := by
  rw [instanceTable, filter_rowsOf, rowsOf, instancesOf, numbersOf, List.map_map, List.map_map]
  refine congrArg (List.map _) (List.filter_congr fun i _ => ?_)
  simp [numberedRow, instanceRow]

include h

/-- An instance goes if its own tag is the one that is purged. -/
theorem contains_instancesOf {id : InstanceId} {i : JobInstance} (hi : m.instance? id = some i) :
    (m.instancesOf tag).contains id = decide (i.appTag = tag) := by
  obtain ⟨hmem, rfl⟩ := h.instance?_eq_some_iff.mp hi
  rw [instancesOf, h.instances_sorted.distinct.contains_map_filter hmem]

/-- An execution goes if its instance does. -/
theorem contains_executionsOfTag {id : ExecutionId} {e : JobExecution}
    (he : m.execution? id = some e) :
    (m.executionsOfTag tag).contains id = (m.instancesOf tag).contains e.instanceId := by
  obtain ⟨hmem, rfl⟩ := h.execution?_eq_some_iff.mp he
  rw [executionsOfTag, h.executions_sorted.distinct.contains_map_filter hmem]

/-- The executions that are joined with an instance of the tag. -/
theorem numbers_goingExecutions :
    (((Database.executionsWithOwner m.instanceTable m.executionTable).filter fun entry =>
      decide (entry.2.2.appTag = .text tag)).map Prod.fst) = numbersOf (m.executionsOfTag tag) := by
  have hfilter : (m.withInstance.filter fun pair =>
      decide ((instanceRow pair.2).appTag = .text tag)) =
        m.withInstance.filter fun pair => (m.instancesOf tag).contains pair.1.instanceId :=
    List.filter_congr fun pair hpair => by
      rw [contains_instancesOf tag h (mem_withInstance hpair).2]
      simp [instanceRow]
  rw [executionsWithOwner_eq, List.filter_map, List.map_map]
  refine (congrArg (List.map _) hfilter).trans ?_
  rw [executionsOfTag, ← map_fst_withInstance h, List.filter_map, numbersOf, List.map_map,
    List.map_map]
  rfl

/-- The step executions that are joined with an instance of the tag. -/
theorem numbers_goingSteps :
    (((Database.stepsWithInstance m.instanceTable m.executionTable m.stepTable).filter fun entry =>
      decide (entry.2.2.2.appTag = .text tag)).map Prod.fst) = numbersOf (m.stepsOfTag tag) := by
  have hjoined := map_filter_filterMap (l := m.withExecution)
    (fun pair => Database.owner? m.instanceTable (executionRow pair.2))
    (f := fun pair i => ((pair.1.id.number : Int), stepRow pair.1, executionRow pair.2, i))
    (p := fun entry => decide (entry.2.2.2.appTag = .text tag))
    (q := fun pair => (m.executionsOfTag tag).contains pair.1.executionId) (g := Prod.fst)
    (k := fun pair => (pair.1.id.number : Int)) fun pair hpair => by
      have he := (mem_withExecution hpair).2
      obtain ⟨i, hi, -⟩ := h.exists_instance (h.execution?_eq_some_iff.mp he).1
      refine ⟨instanceRow i, ?_, ?_, rfl⟩
      · rw [owner?_executionRow, hi, Option.map_some]
      · rw [contains_executionsOfTag tag h he, contains_instancesOf tag h hi]
        simp [instanceRow]
  rw [Database.stepsWithInstance, stepsWithOwner_eq, List.filterMap_map]
  refine hjoined.trans ?_
  rw [stepsOfTag, ← map_fst_withExecution h, List.filter_map, numbersOf, List.map_map,
    List.map_map]
  rfl

omit h in
/-- The rows of instances that stay are those of the remaining ledger. -/
theorem remove_instances : (m.instanceTable.remove fun _ i => decide (i.appTag = .text tag)) =
    (m.remaining tag).instanceTable :=
  remove_rowsOf _ fun i _ => by simp [instanceRow]

omit h in
/-- The rows of executions that stay are those of the remaining ledger. -/
theorem remove_executions :
    (m.executionTable.remove fun _ e =>
      (numbersOf (m.instancesOf tag)).any fun row => e.instanceId = .int row) =
        (m.remaining tag).executionTable :=
  remove_rowsOf _ fun _ _ => any_numbersOf _ _

omit h in
/-- The rows of step executions that stay are those of the remaining ledger. -/
theorem remove_steps :
    (m.stepTable.remove fun _ s =>
      (numbersOf (m.executionsOfTag tag)).any fun row => s.executionId = .int row) =
        (m.remaining tag).stepTable :=
  remove_rowsOf _ fun _ _ => any_numbersOf _ _

/-- The rows of status records that stay are those of the remaining ledger. -/
theorem remove_jobStatuses :
    (m.jobStatusTable.remove fun row _ => (numbersOf (m.instancesOf tag)).contains row) =
      (m.remaining tag).jobStatusTable :=
  remove_sortRows _ h.jobStatuses_distinct fun _ _ => contains_numbersOf _ _

/-- The rows of status records of steps that stay are those of the remaining ledger. -/
theorem remove_stepStatuses :
    (m.stepStatusTable.remove fun row _ => (numbersOf (m.stepsOfTag tag)).contains row) =
      (m.remaining tag).stepStatusTable :=
  remove_sortRows _ h.stepStatuses_distinct fun _ _ => contains_numbersOf _ _

omit h in
/-- The rows that are gone from the tables are those of the records that went. -/
theorem goneRows_eq :
    (⟨Database.goneRows m.instanceTable (m.remaining tag).instanceTable,
      Database.goneRows m.executionTable (m.remaining tag).executionTable,
      Database.goneRows m.stepTable (m.remaining tag).stepTable,
      Database.goneRows m.jobStatusTable (m.remaining tag).jobStatusTable,
      Database.goneRows m.stepStatusTable (m.remaining tag).stepStatusTable,
      (m.checkpoints.map checkpointRow).length -
        ((m.remaining tag).checkpoints.map checkpointRow).length⟩ : PurgeSummary) =
      m.countTag tag := by
  rw [List.length_map, List.length_map, Memory.remaining, length_sub_length_filter, countTag,
    PurgeSummary.mk.injEq]
  exact ⟨goneRows_rowsOf _, goneRows_rowsOf _, goneRows_rowsOf _, goneRows_sortRows _,
    goneRows_sortRows _, rfl⟩

/-- The database of a ledger is purged to the database of the purged ledger. -/
theorem purge_database : Database.purge tag m.database =
    .ok (m.countTag tag, (m.remaining tag).database) := by
  rw [Database.purge, need_instances, ok_bind]
  dsimp only
  rw [numbers_tagged, need_stepStatuses, ok_bind, need_steps, ok_bind, need_executions, ok_bind,
    numbers_goingSteps tag h, numbers_goingExecutions tag h, need_jobStatuses, ok_bind,
    purgeCheckpoints_eq (m.instancesOf tag) m.checkpoints m.database rfl, ok_bind,
    remove_instances, remove_executions, remove_steps, remove_jobStatuses tag h,
    remove_stepStatuses tag h, ← goneRows_eq]
  rfl

end Going

end Memory

end JobLedger
