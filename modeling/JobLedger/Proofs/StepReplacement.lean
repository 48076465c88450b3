import JobLedger.Proofs.PartitionAgreement

/-!
# A step execution in place of another one

A change of a step execution leaves its number and its execution, so that the ledger afterwards has
one row in place of another one and all else as it was; so has the database that keeps the ledger.
What is counted under the names of other instances does not notice.
-/

namespace JobLedger

/-- The ledger with a step execution in place of the one under its number. -/
def Memory.replaceStep (row : StepExecution) (m : Memory) : Memory :=
  m.modifyStep row.id fun _ => row

/-- The database with the row of a step execution in place of the one under its number. -/
def Database.replaceStep (row : StepExecution) (db : Database) : Database :=
  { db with
    steps := db.steps.map fun table => table.modify row.id.number fun _ => stepRow row }

namespace Memory

variable {m : Memory} {row old : StepExecution}

/-- The database of a ledger with a step execution replaced is the database with its row replaced. -/
theorem database_replaceStep (row : StepExecution) (m : Memory) :
    (m.replaceStep row).database = m.database.replaceStep row := by
  have htable : m.stepTable.modify row.id.number (fun _ => stepRow row) =
      (m.replaceStep row).stepTable :=
    modify_table StepExecution.id stepRow m.steps m.lastStep row.id (g := fun _ => row)
      (fun _ hid => hid.symm) fun _ _ => rfl
  rw [Database.replaceStep, database, database]
  dsimp only
  rw [Option.map_some, htable]
  rfl

section Found

variable (h : m.WellFormed)

include h

/-- A change of a step execution that leaves its number puts the changed one in its place. -/
theorem WellFormed.modifyStep_eq_replaceStep {id : StepId} {f : StepExecution → StepExecution}
    (hold : m.step? id = some old) (hid : (f old).id = id) :
    m.modifyStep id f = m.replaceStep (f old) := by
  obtain ⟨hmem, hkey⟩ := h.step?_eq_some_iff.mp hold
  have hsteps : changeRow StepExecution.id id f m.steps =
      changeRow StepExecution.id id (fun _ => f old) m.steps :=
    changeRow_congr fun s hs hsame =>
      congrArg f (h.steps_sorted.distinct.eq_of_key_eq hs hmem (hsame.trans hkey.symm))
  rw [replaceStep, hid]
  exact congrArg (fun steps => { m with steps := steps }) hsteps

/-- A step execution that is there already is put in its own place. -/
theorem WellFormed.replaceStep_self (hrow : m.step? row.id = some row) : m.replaceStep row = m := by
  obtain ⟨hmem, -⟩ := h.step?_eq_some_iff.mp hrow
  have hsteps : changeRow StepExecution.id row.id (fun _ => row) m.steps = m.steps :=
    changeRow_eq_self fun s hs hsame => h.steps_sorted.distinct.eq_of_key_eq hmem hs hsame.symm
  exact congrArg (fun steps => { m with steps := steps }) hsteps

end Found

/-- The step execution that was put in place of another one is found. -/
theorem step?_replaceStep (hold : m.step? row.id = some old) :
    (m.replaceStep row).step? row.id = some row := by
  have hfind : (m.replaceStep row).step? row.id =
      (m.step? row.id).map fun s => if s.id = row.id then row else s :=
    find?_changeRow (f := fun _ => row) (fun _ hid => hid.symm) row.id
  have hid : old.id = row.id := key_of_find? StepExecution.id hold
  rw [hfind, hold, Option.map_some, if_pos hid]

/-- A change that a step execution has taken already can be made while its execution is on its way,
and leaves the ledger. -/
theorem WellFormed.updateStep_taken (h : m.WellFormed) {id : StepId} {update : StepUpdate}
    {owner : JobExecution} (hrow : m.step? id = some row)
    (howner : m.execution? row.executionId = some owner) (hopen : owner.status.isTerminal = false)
    (htaken : update.apply row = row) : m.updateStep id update = .ok ((), m) := by
  obtain ⟨-, hid⟩ := h.step?_eq_some_iff.mp hrow
  have hsame : m.modifyStep id update.apply = m := by
    rw [h.modifyStep_eq_replaceStep hrow (htaken.symm ▸ hid), htaken]
    exact h.replaceStep_self (hid ▸ hrow)
  rw [Memory.updateStep, hrow]
  dsimp only
  rw [execution_eq, howner]
  dsimp only
  rw [ok_bind, hopen, if_neg Bool.false_ne_true, hsame]

/-! ## What is counted under names -/

/-- The instance of a step execution has a name of a kind. -/
def isUnder (m : Memory) (named : String → Bool) (s : StepExecution) : Bool :=
  (m.execution? s.executionId).any fun e => (m.instance? e.instanceId).any fun i => named i.name

theorem countsUnder_eq (named : String → Bool) :
    m.countsUnder named = (m.steps.filter (m.isUnder named)).map StepExecution.metrics := by
  rw [countsUnder, ownedUnder, withOwners, withExecution]
  induction m.steps with
  | nil => rfl
  | cons s rest ih =>
    rw [List.filterMap_cons, List.filter_cons, isUnder]
    cases m.execution? s.executionId with
    | none => exact ih
    | some e =>
      rw [Option.map_some, Option.any_some]
      dsimp only
      rw [List.filterMap_cons]
      cases m.instance? e.instanceId with
      | none => exact ih
      | some i =>
        rw [Option.map_some, Option.any_some]
        dsimp only
        rw [List.filter_cons]
        cases named i.name with
        | false => exact ih
        | true => exact congrArg (s.metrics :: ·) ih

/-- A step execution that is not counted is replaced by another one of the same execution, and the
counts are what they were. -/
theorem countsUnder_replaceStep {named : String → Bool} (h : m.WellFormed)
    (hold : m.step? row.id = some old) (hexecution : row.executionId = old.executionId)
    (hnot : m.isUnder named old = false) :
    (m.replaceStep row).countsUnder named = m.countsUnder named := by
  obtain ⟨hmem, hid⟩ := h.step?_eq_some_iff.mp hold
  have hrow : m.isUnder named row = false := by
    rw [isUnder, hexecution]
    exact hnot
  have hkept : (changeRow StepExecution.id row.id (fun _ => row) m.steps).filter (m.isUnder named) =
      m.steps.filter (m.isUnder named) :=
    filter_changeRow_of_neither fun s hs hsame => by
      have hs : s = old := h.steps_sorted.distinct.eq_of_key_eq hs hmem (hsame.trans hid.symm)
      exact ⟨hs ▸ hnot, hrow⟩
  have hafter : (m.replaceStep row).isUnder named = m.isUnder named := rfl
  rw [countsUnder_eq, countsUnder_eq, hafter]
  exact congrArg (List.map StepExecution.metrics) hkept

end Memory

end JobLedger
