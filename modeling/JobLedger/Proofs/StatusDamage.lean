import JobLedger.Proofs.Damage

/-!
# How damaged status records are told

The octets of a status record are damaged if they are not the frame of a record with the number of
their row. The calls that read the record tell damage as such, whatever else may be wrong with the
octets, with one exception: a record with a number that no row can have is taken for a request with
such a number, before it is compared with the row.
-/

namespace JobLedger

open JobLedger.Action Text

/-! ## What is kept under a row -/

namespace Cell

variable {α : Type} [JsonForm α] {entity : Entity} {cell : Cell} {key : α → Id entity} {row : Int}

/-- A cell holds one record at most. -/
theorem HoldsValue.unique {value other : α} (h : cell.HoldsValue value)
    (h' : cell.HoldsValue other) : value = other := by
  have hread := @readBlob_storedValue_eq_ok_iff α _ "" (.named "") cell
  exact Except.ok.inj ((hread.mpr h).symm.trans (hread.mpr h'))

/-- A cell holds no record with the number of the row that it is kept under. -/
def LacksOwn (cell : Cell) (key : α → Id entity) (row : Int) : Prop :=
  ∀ value, cell.HoldsValue value → ((key value).number : Int) ≠ row

/-- A cell holds a record with a number that no row can have. -/
def HoldsBeyond (cell : Cell) (key : α → Id entity) (value : α) : Prop :=
  cell.HoldsValue value ∧ signedLimit ≤ ((key value).number : Int)

/-- What becomes of a cell that is kept under a row when it is read. -/
inductive KeptAs (cell : Cell) (key : α → Id entity) (row : Int) : Except StoreError α → Prop where
  | own {value : α} (holds : cell.HoldsValue value) (same : ((key value).number : Int) = row)
    (within : ((key value).number : Int) < signedLimit) : KeptAs cell key row (.ok value)
  | beyond {value : α} (holds : cell.HoldsBeyond key value) :
    KeptAs cell key row (.error ⟨.invalid, .idRange (key value).number⟩)
  | damaged {cause : Cause} (lacks : cell.LacksOwn key row)
    (within : ∀ value, ¬ cell.HoldsBeyond key value) : KeptAs cell key row (.error ⟨.corrupt, cause⟩)

/-- A value is read, its number is taken for that of a row, and is compared with the row. -/
theorem keptAs_of_storedValue {source : Octets} {place : BlobPlace} {other : α → Cause} :
    (blob source).KeptAs key row (do
      let found ← storedValue (Codec.json α) place source
      let held ← rowOf (key found)
      if held ≠ row then .error ⟨.corrupt, other found⟩ else .ok found) := by
  have hread (value : α) : storedValue (Codec.json α) place source = .ok value ↔
      (blob source).HoldsValue value :=
    @readBlob_storedValue_eq_ok_iff α _ "" place (blob source) value
  cases hvalue : storedValue (Codec.json α) place source with
  | error e =>
    have hnone (value : α) : ¬ (blob source).HoldsValue value := by
      rw [← hread value, hvalue]
      simp
    rw [storedValue] at hvalue
    split at hvalue
    · cases hvalue
    · obtain rfl := Except.error.inj hvalue
      exact .damaged (fun value hholds => absurd hholds (hnone value))
        fun value hbeyond => hnone value hbeyond.1
  | ok value =>
    have hholds := (hread value).mp hvalue
    rw [ok_bind]
    -- That a row can have the number is asked first, and whether it is this row only then.
    by_cases hwithin : ((key value).number : Int) < signedLimit
    · rw [rowOf_of_lt hwithin, ok_bind]
      by_cases hsame : ((key value).number : Int) = row
      · rw [if_neg (not_not_intro hsame)]
        exact .own hholds hsame hwithin
      · rw [if_pos hsame]
        refine .damaged (fun found hfound => ?_) fun found hbeyond => ?_
        · rwa [hfound.unique hholds]
        · rw [HoldsBeyond, hbeyond.1.unique hholds] at hbeyond
          exact Int.not_le.mpr hwithin hbeyond.2
    · rw [rowOf_of_not_lt hwithin]
      exact .beyond ⟨hholds, Int.not_lt.mp hwithin⟩

/-- The status record of an instance is kept under the number of the instance. -/
theorem keptAs_storedJobStatus (row : Int) (source : Octets) :
    (blob source).KeptAs JobStatus.instanceId row (Database.storedJobStatus row source) :=
  keptAs_of_storedValue

/-- The status record of a step is kept under the number of its step execution. -/
theorem keptAs_storedStepStatus (row : Int) (source : Octets) :
    (blob source).KeptAs StepStatus.statusId row (Database.storedStepStatus row source) :=
  keptAs_of_storedValue

end Cell

/-- An answer tells the damage of a cell that is kept under a row: it is a failure to decode exactly
if the cell holds no record of the row, with the exception of a record that is beyond all rows. -/
structure TellsDamage {α β : Type} [JsonForm α] {entity : Entity} (answer : Except LedgerError β)
    (cell : Cell) (key : α → Id entity) (row : Int) : Prop where
  decodeFailure_iff : (∃ cause, answer = .error ⟨.decodeFailure, cause⟩) ↔
    cell.LacksOwn key row ∧ ∀ value, ¬ cell.HoldsBeyond key value
  invalid_of_beyond : ∀ value, cell.HoldsBeyond key value →
    answer = .error ⟨.invalid, .idRange (key value).number⟩

/-- An answer that hands on what becomes of a cell tells its damage. -/
theorem TellsDamage.of_keptAs {α β : Type} [JsonForm α] {entity : Entity} {cell : Cell}
    {key : α → Id entity} {row : Int} {result : Except StoreError α} {answer : Except LedgerError β}
    (h : cell.KeptAs key row result)
    (herror : ∀ e, result = .error e → answer = .error e.toLedger)
    (hok : ∀ value cause, result = .ok value → answer ≠ .error ⟨.decodeFailure, cause⟩) :
    TellsDamage answer cell key row := by
  cases h with
  | own holds same within =>
    refine ⟨⟨fun ⟨cause, hanswer⟩ => absurd hanswer (hok _ cause rfl), fun hlacks => ?_⟩,
      fun value hbeyond => ?_⟩
    · exact absurd same (hlacks.1 _ holds)
    · rw [Cell.HoldsBeyond, hbeyond.1.unique holds] at hbeyond
      exact absurd within (Int.not_lt.mpr hbeyond.2)
  | beyond holds =>
    have hanswer := herror _ rfl
    refine ⟨⟨?_, fun hlacks => absurd holds (hlacks.2 _)⟩, fun value hbeyond => ?_⟩
    · rintro ⟨cause, hfailure⟩
      exact nomatch hfailure.symm.trans hanswer
    · rw [hanswer, hbeyond.1.unique holds.1]
      rfl
  | damaged lacks within =>
    exact ⟨⟨fun _ => ⟨lacks, within⟩, fun _ => ⟨_, herror _ rfl⟩⟩,
      fun value hbeyond => absurd hbeyond (within value)⟩

/-- A query that finds what is read of a cell tells its damage. -/
theorem TellsDamage.of_found {α : Type} [JsonForm α] {entity : Entity} {cell : Cell}
    {key : α → Id entity} {row : Int} {result : Except StoreError α}
    {answer : Except LedgerError (Option α)} (h : cell.KeptAs key row result)
    (hanswer : answer = (result.map some).mapError StoreError.toLedger) :
    TellsDamage answer cell key row := by
  refine .of_keptAs h (fun e he => ?_) fun value cause hvalue => ?_
  · rw [hanswer, he]
    rfl
  · rw [hanswer, hvalue]
    exact nofun

/-! ## The calls that read status records -/

namespace Database

/-- What is found for an instance is what its cell holds. -/
theorem findJobStatus_eq {db : Database} {row : Int} {source : Octets}
    (hcell : db.jobStatus? row = some (.blob source)) :
    findJobStatus row db = (storedJobStatus row source).map some := by
  obtain ⟨t, ht, hfind⟩ := Option.bind_eq_some_iff.mp hcell
  rw [findJobStatus, ht, Memory.need_some, ok_bind, hfind]
  rfl

/-- The rows of step executions, and those of their status records, stand in order. -/
structure StepsOrdered (db : Database) : Prop where
  steps : ∀ t, db.steps = some t → t.Ordered
  stepStatuses : ∀ t, db.stepStatuses = some t → t.Ordered

/-- What is found for a step is what the first cell of it holds. -/
theorem findStepStatus_eq {db : Database} (h : db.StepsOrdered) {owner row : Int} {step : String}
    {source : Octets} (hkeeps : db.KeepsFirst owner step row (.blob source)) :
    findStepStatus owner step db = (storedStepStatus row source).map some := by
  obtain ⟨statuses, steps, executions, hstatuses, hsteps, hexecutions⟩ := hkeeps.exists_tables
  obtain ⟨hnone, -⟩ | ⟨other, cell, hkeeps', -, heq⟩ := findStepStatus_cases hstatuses hsteps
    hexecutions (h.stepStatuses statuses hstatuses) (h.steps steps hsteps) owner step
  · exact nomatch (hnone row hkeeps.1).symm.trans hkeeps.2.1
  · obtain ⟨rfl, rfl⟩ := hkeeps'.unique hkeeps
    exact heq

/-- A database that readers find open is found by them. -/
theorem OpenIn.foundIn {σ : Type} [KeepsDatabase σ] {db : Database} {s : σ} (h : db.OpenIn s) :
    db.FoundIn s :=
  fun operation _ hfound => .inl (Except.ok.inj (hfound.symm.trans (h operation)))

/-- Nothing is in the way of the writer, and an identifier has a row number. -/
def WritableAt {σ : Type} [KeepsDatabase σ] {entity : Entity} (db : Database) (s : σ)
    (id : Id entity) : Prop :=
  (id.number : Int) < signedLimit ∧ ∀ operation, KeepsDatabase.writable s operation = .ok db

section Calls

variable {σ : Type} [KeepsDatabase σ] {db : Database} {s : σ} {source : Octets}

/-- Asked for the status of an instance, a session tells of damage in its cell. -/
theorem tellsDamage_findJobStatus {id : InstanceId} (hopen : db.OpenAt s id)
    (hcell : db.jobStatus? id.number = some (.blob source)) :
    TellsDamage (perform (.findJobStatus id) s).answer (.blob source) JobStatus.instanceId
      id.number := by
  refine .of_found (Cell.keptAs_storedJobStatus id.number source) ?_
  rw [answer_perform rfl]
  refine ((answersBy_readRow hopen.2.foundIn ⟨_, rfl⟩).eq_of_open hopen).trans ?_
  rw [findJobStatus_eq hcell]

/-- Asked for the status of an execution, a session tells of damage in the cell of its instance. -/
theorem tellsDamage_jobStatusOf {id : ExecutionId} {r : ExecutionRow} {owner : Int}
    (hopen : db.OpenAt s id) (hr : db.execution? id.number = some r)
    (howner : r.instanceId = .int owner) (hcell : db.jobStatus? owner = some (.blob source)) :
    TellsDamage (perform (.jobStatusOf id) s).answer (.blob source) JobStatus.instanceId owner := by
  refine .of_found (Cell.keptAs_storedJobStatus owner source) ?_
  rw [answer_perform rfl]
  refine ((answersBy_readRow hopen.2.foundIn ⟨_, rfl⟩).eq_of_open hopen).trans ?_
  rw [jobStatusOf_eq hr howner, findJobStatus_eq hcell]

/-- Asked for the status of a step, a session tells of damage in the first cell of it. -/
theorem tellsDamage_findStepStatus (h : db.StepsOrdered) {id : InstanceId} {step : String}
    {row : Int} (hopen : db.OpenAt s id) (hkeeps : db.KeepsFirst id.number step row (.blob source)) :
    TellsDamage (perform (.findStepStatus id step) s).answer (.blob source) StepStatus.statusId
      row := by
  refine .of_found (Cell.keptAs_storedStepStatus row source) ?_
  rw [answer_perform rfl]
  refine ((answersBy_readRow hopen.2.foundIn ⟨_, rfl⟩).eq_of_open hopen).trans ?_
  rw [findStepStatus_eq h hkeeps]

/-- Where nothing is in its way, a change answers as its statement does. -/
theorem answer_write {α : Type} {operation : String}
    {update : Database → Except StoreError (α × Database)}
    (hopen : KeepsDatabase.writable s operation = .ok db) :
    (write operation update s).answer = (update db).map Prod.fst := by
  rw [write, change, hopen, ok_bind]
  cases update db with
  | error e => rfl
  | ok result => rfl

/-- What is wrong with a count or with its blob is no damage of what was read. -/
theorem incrementStartCount_of_stored (id : StepId) {row : Int} {status : StepStatus}
    (hcell : db.stepStatus? row = some (.blob source))
    (hstored : storedStepStatus row source = .ok status) (cause : Cause) :
    incrementStartCount id row db ≠ .error ⟨.corrupt, cause⟩ := by
  obtain ⟨t, ht, hfind⟩ := Option.bind_eq_some_iff.mp hcell
  rw [incrementStartCount, ht, Memory.need_some, ok_bind, hfind]
  dsimp only [Cell.readBlob]
  rw [ok_bind, hstored, ok_bind]
  split
  · cases hblob : stepStatusBlob { status with startCount := status.startCount + 1 } with
    | ok blob => simp [ok_bind]
    | error e =>
      rw [stepStatusBlob, blobOf] at hblob
      split at hblob
      · cases hblob
      · obtain rfl := Except.error.inj hblob
        simp [Bind.bind, Except.bind]
  · simp

/-- No start is counted in a damaged record. -/
theorem incrementStartCount_of_damaged {id : StepId} {row : Int} {e : StoreError}
    (hcell : db.stepStatus? row = some (.blob source))
    (hstored : storedStepStatus row source = .error e) :
    incrementStartCount id row db = .error e := by
  obtain ⟨t, ht, hfind⟩ := Option.bind_eq_some_iff.mp hcell
  rw [incrementStartCount, ht, Memory.need_some, ok_bind, hfind]
  dsimp only [Cell.readBlob]
  rw [ok_bind, hstored]
  rfl

/-- Asked to count a start, a session tells of damage in the cell. -/
theorem tellsDamage_incrementStartCount {id : StepId} (hopen : db.WritableAt s id)
    (hcell : db.stepStatus? id.number = some (.blob source)) :
    TellsDamage (perform (.incrementStartCount id) s).answer (.blob source) StepStatus.statusId
      id.number := by
  have hanswer : (perform (.incrementStartCount id) s).answer =
      ((incrementStartCount id id.number db).map Prod.fst).mapError StoreError.toLedger := by
    rw [answer_perform rfl, performStored, rowOf_of_lt hopen.1]
    exact congrArg (Except.mapError StoreError.toLedger) (answer_write (hopen.2 _))
  refine .of_keptAs (Cell.keptAs_storedStepStatus id.number source)
    (fun e he => ?_) fun status cause hstored hfailure => ?_
  · rw [hanswer, incrementStartCount_of_damaged hcell he]
    rfl
  · rw [hanswer] at hfailure
    have hnot := incrementStartCount_of_stored id hcell hstored cause
    cases hcount : incrementStartCount id id.number db with
    | ok count =>
      rw [hcount] at hfailure
      exact nomatch hfailure
    | error e =>
      rw [hcount] at hfailure hnot
      exact hnot (congrArg _ (StoreError.eq_corrupt_of_toLedger (Except.error.inj hfailure)))

end Calls

/-- The calls that read a status record tell the damage of octets that are kept for it. -/
structure TellsStatusDamage {σ : Type} [KeepsDatabase σ] (db : Database) (s : σ) : Prop where
  jobStatus : ∀ id source, db.OpenAt s id → db.jobStatus? id.number = some (.blob source) →
    TellsDamage (perform (.findJobStatus id) s).answer (.blob source) JobStatus.instanceId id.number
  jobStatusOf : ∀ id r owner source, db.OpenAt s id → db.execution? id.number = some r →
    r.instanceId = .int owner → db.jobStatus? owner = some (.blob source) →
      TellsDamage (perform (.jobStatusOf id) s).answer (.blob source) JobStatus.instanceId owner
  stepStatus : ∀ id step row source, db.OpenAt s id →
    db.KeepsFirst id.number step row (.blob source) →
      TellsDamage (perform (.findStepStatus id step) s).answer (.blob source) StepStatus.statusId row
  startCount : ∀ id source, db.WritableAt s id → db.stepStatus? id.number = some (.blob source) →
    TellsDamage (perform (.incrementStartCount id) s).answer (.blob source) StepStatus.statusId
      id.number

end Database

/-- Every session tells damaged status records, whatever octets there are in their rows: a record
with a number beyond all rows as an invalid request, everything else as a failure to decode. -/
theorem tellsStatusDamage_everySession (l : OpenLedger) (h : l.database.StepsOrdered) :
    l.database.TellsStatusDamage l where
  jobStatus _ _ hopen hcell := Database.tellsDamage_findJobStatus hopen hcell
  jobStatusOf _ _ _ _ hopen hr howner hcell := Database.tellsDamage_jobStatusOf hopen hr howner hcell
  stepStatus _ _ _ _ hopen hkeeps := Database.tellsDamage_findStepStatus h hopen hkeeps
  startCount _ _ hopen hcell := Database.tellsDamage_incrementStartCount hopen hcell

/-- The number of an instance that no row can have. -/
def beyondRows : InstanceId := ⟨9223372036854775808, by decide, by decide⟩

/-- A file in which the status record of an instance is one beyond all rows, and that of a step is the
record of another one. -/
def misfiledLedger : LedgerFile := { LedgerFile.blank with database := {
  versions := some [.int schemaVersion]
  instances := some ⟨[(1, ⟨.text "load", .text "nightly", .null⟩)], 1⟩
  executions := some ⟨[(1, ⟨.int 1, .int 0, .null, .null, .int 0, .text "STARTING", .null,
    .blob (blob JobParameters.empty)⟩)], 1⟩
  steps := some ⟨[(1, ⟨.int 1, .text "copy", .text "STARTING", .null, .const (.int 0), .int 0, .null,
    .blob (Frame.framed none)⟩)], 1⟩
  jobStatuses := some ⟨[(1, Memory.recordCell (JobStatus.fresh beyondRows))], 0⟩
  stepStatuses := some ⟨[(1, Memory.recordCell (StepStatus.fresh ⟨2, by decide, by decide⟩))], 0⟩
  checkpoints := some []
  indexes := ⟨true, true, true, true⟩ } }

/-- A session on that file. -/
def misfiledStatuses : OpenLedger where
  files := FileTree.start.put ["work", "ledger.db"] (.ledger misfiledLedger)
  session := .ledger (.file ["work", "ledger.db"]) true [false]

/-- The file with misfiled records is undisturbed. -/
theorem undisturbed_misfiledStatuses :
    misfiledStatuses.files.Undisturbed ["work", "ledger.db"] misfiledLedger := by
  have hclear : FileTree.start.IsClear ["work", "ledger.db"] :=
    ⟨by decide +kernel, by decide +kernel, by decide +kernel⟩
  have hguarded : (FileTree.start.put ["work", "ledger.db"] (.ledger misfiledLedger)).Guarded
      ["work", "ledger.db"] misfiledLedger := hclear.guarded rfl rfl
  exact hguarded.undisturbed rfl

/-- The session finds the database that is in the file. -/
theorem database_misfiledStatuses : misfiledStatuses.database = misfiledLedger.database :=
  congrArg LedgerFile.database undisturbed_misfiledStatuses.ledgerAt

/-- The database with misfiled records is open to readers. -/
theorem openIn_misfiledStatuses : misfiledLedger.database.OpenIn misfiledStatuses :=
  OpenLedger.readable_eq undisturbed_misfiledStatuses true [false]

/-- Of misfiled status records the one beyond all rows is told as an invalid request, and the other
one as damage. -/
theorem tellsStatusDamage_misfiled :
    let id : InstanceId := ⟨1, by decide, by decide⟩
    let step : StepId := ⟨1, by decide, by decide⟩
    misfiledStatuses.database.StepsOrdered ∧
      (perform (.findJobStatus id) misfiledStatuses).answer =
        .error ⟨.invalid, .idRange beyondRows.number⟩ ∧
      (∃ cause, (perform (.findStepStatus id "copy") misfiledStatuses).answer =
        .error ⟨.decodeFailure, cause⟩) ∧
      ∃ cause, (perform (.incrementStartCount step) misfiledStatuses).answer =
        .error ⟨.decodeFailure, cause⟩ := by
  intro id step
  have hordered : misfiledStatuses.database.StepsOrdered := by
    rw [database_misfiledStatuses]
    refine ⟨fun t ht => ?_, fun t ht => ?_⟩
    · cases ht
      exact Table.ordered_singleton (by decide)
    · cases ht
      exact Table.ordered_singleton (by decide)
  have htells := tellsStatusDamage_everySession misfiledStatuses hordered
  rw [database_misfiledStatuses] at htells
  have hother : (Memory.recordCell (StepStatus.fresh ⟨2, by decide, by decide⟩)).LacksOwn
      StepStatus.statusId 1 ∧ ∀ value, ¬ (Memory.recordCell (StepStatus.fresh
        ⟨2, by decide, by decide⟩)).HoldsBeyond StepStatus.statusId value := by
    have hholds := holdsValue_recordCell (hasBlob_fresh_stepStatus ⟨2, by decide, by decide⟩)
    refine ⟨fun value hvalue => ?_, fun value hbeyond => ?_⟩
    · rw [hvalue.unique hholds]
      exact nofun
    · rw [Cell.HoldsBeyond, hbeyond.1.unique hholds] at hbeyond
      exact absurd hbeyond.2 (by decide)
  refine ⟨hordered, ?_, ?_, ?_⟩
  · exact (htells.jobStatus id _ ⟨by decide, openIn_misfiledStatuses⟩ rfl).invalid_of_beyond _
      ⟨holdsValue_recordCell (hasBlob_fresh_jobStatus beyondRows), by decide⟩
  · refine (htells.stepStatus id "copy" 1 _ ⟨by decide, openIn_misfiledStatuses⟩ ?_).decodeFailure_iff.mpr
      hother
    refine ⟨⟨_, 1, _, rfl, rfl, rfl, rfl, rfl⟩, rfl, fun n hn _ => ?_⟩
    refine Option.eq_none_iff_forall_ne_some.mpr fun cell hcell => ?_
    exact absurd (Table.find?_singleton_eq_some_iff.mp hcell).1 (Int.ne_of_lt hn)
  · exact (htells.startCount step _ ⟨by decide, fun operation =>
      OpenLedger.writable_eq undisturbed_misfiledStatuses [false] operation⟩ rfl).decodeFailure_iff.mpr
        hother

/-- The record of an instance beyond all rows is not the one of the first row, and yet it is not told
as damage there. -/
theorem findJobStatus_beyondRows :
    let id : InstanceId := ⟨1, by decide, by decide⟩
    let cell := Memory.recordCell (JobStatus.fresh beyondRows)
    misfiledStatuses.database.jobStatus? id.number = some cell ∧
      cell.LacksOwn JobStatus.instanceId id.number ∧
      (perform (.findJobStatus id) misfiledStatuses).answer =
        .error ⟨.invalid, .idRange 9223372036854775808⟩ := by
  intro id cell
  have hholds := holdsValue_recordCell (hasBlob_fresh_jobStatus beyondRows)
  have htells : TellsDamage (perform (.findJobStatus id) misfiledStatuses).answer cell
      JobStatus.instanceId id.number := by
    have hopen : misfiledLedger.database.OpenAt misfiledStatuses id :=
      ⟨by decide, openIn_misfiledStatuses⟩
    exact Database.tellsDamage_findJobStatus hopen rfl
  refine ⟨?_, fun value hvalue => ?_, ?_⟩
  · rw [database_misfiledStatuses]
    rfl
  · rw [hvalue.unique hholds]
    exact nofun
  · exact htells.invalid_of_beyond _ ⟨hholds, by decide⟩

end JobLedger
