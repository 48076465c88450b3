import JobLedger.Proofs.Durable.Changes

/-!
# Changes of the progress in a database that holds a ledger

Status records are put at their place among the blobs and replaced there; tokens are replaced under
the cells of their keys. The database that holds a ledger follows each of these changes.
-/

namespace JobLedger

open Text

section SortedTables

variable {α ρ : Type} {entity : Entity} {key : α → Id entity} {row : α → ρ} {records : List α}

/-- A record that is added is put at its place among the rows. -/
theorem put_sortRows (high : Int) {a : α} (hdistinct : DistinctKeys key (records ++ [a])) :
    (Table.mk (sortRows (rowsOf key row records)) high).put (key a).number (row a) =
      ⟨sortRows (rowsOf key row (records ++ [a])), high⟩ := by
  have hrows : DistinctKeys Prod.fst (rowsOf key row (records ++ [a])) :=
    distinctKeys_rowsOf hdistinct
  rw [rowsOf_append] at hrows ⊢
  exact congrArg (Table.mk · high) (place_sortRows hrows)

/-- A record that is changed is changed in its row. -/
theorem modify_sortRows (high : Int) (hdistinct : DistinctKeys key records) {id : Id entity}
    {f : ρ → ρ} {g : α → α} (hkey : ∀ a, key a = id → key (g a) = key a)
    (hrow : ∀ a, key a = id → row (g a) = f (row a)) :
    (Table.mk (sortRows (rowsOf key row records)) high).modify id.number f =
      ⟨sortRows (rowsOf key row (changeRow key id g records)), high⟩ := by
  rw [← modify_rowsOf hkey hrow]
  refine congrArg (Table.mk · high) (map_sortRows (distinctKeys_rowsOf hdistinct) fun entry => ?_)
  split <;> rfl

end SortedTables

namespace Memory

variable {m : Memory}

section HasRow

variable (operation : String)

/-- There is a row if the instance is found. -/
theorem hasRow_instances (id : InstanceId) :
    Database.hasRow operation m.database.instances id.number = .ok (m.instance? id).isSome := by
  rw [Database.hasRow, need_instances, ok_bind, find?_instanceTable, Option.isSome_map]

/-- There is a row if the step execution is found. -/
theorem hasRow_steps (id : StepId) :
    Database.hasRow operation m.database.steps id.number = .ok (m.step? id).isSome := by
  rw [Database.hasRow, need_steps, ok_bind, find?_stepTable, Option.isSome_map]

/-- There is a row if the status record is found. -/
theorem hasRow_jobStatuses (h : WellFormed m) (id : InstanceId) :
    Database.hasRow operation m.database.jobStatuses id.number = .ok (m.jobStatus? id).isSome := by
  rw [Database.hasRow, need_jobStatuses, ok_bind, h.find?_jobStatusTable, Option.isSome_map]

/-- There is a row if the status record of the step is found. -/
theorem hasRow_stepStatuses (h : WellFormed m) (id : StepId) :
    Database.hasRow operation m.database.stepStatuses id.number =
      .ok (m.stepStatus? id).isSome := by
  rw [Database.hasRow, need_stepStatuses, ok_bind, h.find?_stepStatusTable, Option.isSome_map]

end HasRow

/-! ## Status records -/

section Statuses

variable (h : WellFormed m) (hs : Storable m)

include h hs

omit hs in
/-- A status record is replaced in its row. -/
theorem modify_jobStatusTable (status : JobStatus) :
    (m.jobStatusTable.modify status.instanceId.number fun _ => .blob (blob status)) =
      (m.setJobStatus status).jobStatusTable :=
  modify_sortRows 0 h.jobStatuses_distinct (fun _ hold => hold.symm) fun _ _ => rfl

omit hs in
/-- The status record of a step is replaced in its row. -/
theorem modify_stepStatusTable (status : StepStatus) :
    (m.stepStatusTable.modify status.statusId.number fun _ => .blob (blob status)) =
      (m.setStepStatus status).stepStatusTable :=
  modify_sortRows 0 h.stepStatuses_distinct (fun _ hold => hold.symm) fun _ _ => rfl

omit hs in
/-- A new status record is put in front of the rows of later instances. -/
theorem put_jobStatusTable (status : JobStatus) (hnew : m.jobStatus? status.instanceId = none) :
    m.jobStatusTable.put status.instanceId.number (.blob (blob status)) =
      Memory.jobStatusTable { m with jobStatuses := m.jobStatuses ++ [status] } :=
  put_sortRows 0 (h.jobStatuses_distinct.append hnew)

omit hs in
/-- A new status record of a step is put in front of the rows of later step executions. -/
theorem put_stepStatusTable (status : StepStatus) (hnew : m.stepStatus? status.statusId = none) :
    m.stepStatusTable.put status.statusId.number (.blob (blob status)) =
      Memory.stepStatusTable { m with stepStatuses := m.stepStatuses ++ [status] } :=
  put_sortRows 0 (h.stepStatuses_distinct.append hnew)

/-- The first status record of an instance is inserted, or refused as it is in memory. -/
theorem follows_createJobStatus (id : InstanceId) :
    Follows ((Database.createJobStatus id id.number (blob (JobStatus.fresh id)) m.database).map
        fun result => (JobStatus.fresh id, result.2))
      (m.createJobStatus id) := by
  rw [Database.createJobStatus, createJobStatus, hasRow_instances, ok_bind]
  cases m.instance? id with
  | none => exact .error
  | some i =>
    rw [Option.isSome_some, Bool.not_true, if_neg Bool.false_ne_true, Option.isNone_some,
      if_neg Bool.false_ne_true, hasRow_jobStatuses _ h, ok_bind]
    cases hstatus : m.jobStatus? id with
    | some status => exact .error
    | none =>
      have hput := put_jobStatusTable h (JobStatus.fresh id) hstatus
      rw [Option.isSome_none, if_neg Bool.false_ne_true, if_neg Bool.false_ne_true, need_jobStatuses,
        ok_bind]
      dsimp only [JobStatus.fresh] at hput ⊢
      rw [hput]
      exact .ok (hs.addJobStatus (hasBlob_fresh_jobStatus id))

/-- The first status record under a step execution is inserted, or refused as it is in memory. -/
theorem follows_createStepStatus (id : StepId) :
    Follows ((Database.createStepStatus id id.number (blob (StepStatus.fresh id)) m.database).map
        fun result => (StepStatus.fresh id, result.2))
      (m.createStepStatus id) := by
  rw [Database.createStepStatus, createStepStatus, hasRow_steps, ok_bind]
  cases m.step? id with
  | none => exact .error
  | some s =>
    rw [Option.isSome_some, Bool.not_true, if_neg Bool.false_ne_true, Option.isNone_some,
      if_neg Bool.false_ne_true, hasRow_stepStatuses _ h, ok_bind]
    cases hstatus : m.stepStatus? id with
    | some status => exact .error
    | none =>
      have hput := put_stepStatusTable h (StepStatus.fresh id) hstatus
      rw [Option.isSome_none, if_neg Bool.false_ne_true, if_neg Bool.false_ne_true, need_stepStatuses,
        ok_bind]
      dsimp only [StepStatus.fresh] at hput ⊢
      rw [hput]
      exact .ok (hs.addStepStatus (hasBlob_fresh_stepStatus id))

/-- The status record of an instance is replaced, or missing as it is in memory. -/
theorem follows_updateJobStatus {status : JobStatus} (hstatus : HasBlob status) :
    Follows (Database.updateJobStatus status.instanceId status.instanceId.number (blob status)
      m.database) (m.updateJobStatus status) := by
  rw [Database.updateJobStatus, Database.replaceBlob, updateJobStatus, need_jobStatuses, ok_bind,
    h.find?_jobStatusTable, Option.isNone_map]
  cases m.jobStatus? status.instanceId with
  | none => exact .error
  | some old =>
    rw [Option.isNone_some, if_neg Bool.false_ne_true, if_neg Bool.false_ne_true, ok_bind,
      modify_jobStatusTable h]
    exact .ok (hs.setJobStatus hstatus)

/-- The status record of a step is replaced, or missing as it is in memory. -/
theorem follows_updateStepStatus {status : StepStatus} (hstatus : HasBlob status) :
    Follows (Database.updateStepStatus status.statusId status.statusId.number (blob status)
      m.database) (m.updateStepStatus status) := by
  rw [Database.updateStepStatus, Database.replaceBlob, updateStepStatus, need_stepStatuses, ok_bind,
    h.find?_stepStatusTable, Option.isNone_map]
  cases m.stepStatus? status.statusId with
  | none => exact .error
  | some old =>
    rw [Option.isNone_some, if_neg Bool.false_ne_true, if_neg Bool.false_ne_true, ok_bind,
      modify_stepStatusTable h]
    exact .ok (hs.setStepStatus hstatus)

omit h hs in
/-- A record that replaces another one is there. -/
theorem mem_setStepStatus {old status : StepStatus} (hold : old ∈ m.stepStatuses)
    (hid : old.statusId = status.statusId) : status ∈ (m.setStepStatus status).stepStatuses :=
  List.mem_map.mpr ⟨old, hold, if_pos hid⟩

/-- Where the record with the higher count has no blob, the database refuses it. -/
theorem follows_incrementStartCount (id : StepId) :
    Follows (Database.incrementStartCount id id.number m.database) (m.incrementStartCount id) := by
  rw [Database.incrementStartCount, incrementStartCount]
  dsimp only
  rw [need_stepStatuses, ok_bind, h.find?_stepStatusTable]
  cases hstatus : m.stepStatus? id with
  | none => exact .error
  | some status =>
    obtain ⟨hmem, rfl⟩ := h.stepStatus?_eq_some_iff.mp hstatus
    rw [Option.map_some]
    dsimp only [recordCell, Cell.readBlob]
    rw [ok_bind, storedStepStatus_eq h hs hmem, ok_bind]
    by_cases hcount : status.startCount.toNat + 1 < UInt32.size
    · rw [if_pos hcount, if_pos hcount]
      by_cases hblob : HasBlob { status with startCount := status.startCount + 1 }
      · have hmodify := modify_stepStatusTable h
          { status with startCount := status.startCount + 1 }
        dsimp only at hmodify
        rw [Database.stepStatusBlob, blobOf_of_hasBlob hblob, ok_bind, hmodify]
        exact .ok (hs.setStepStatus hblob)
      · rw [Database.stepStatusBlob, blobOf_of_not_hasBlob hblob]
        refine .full fun hnext => hblob (hnext.stepStatus_fits _ ?_)
        exact mem_setStepStatus hmem rfl
    · rw [if_neg hcount, if_neg hcount]
      exact .error

end Statuses

/-! ## Restart tokens -/

section Tokens

/-- A token is replaced in the row of its key. -/
theorem checkpointRows_setToken (key : CheckpointKey) (token : Option Octets)
    (rows : List (String × Option Octets)) :
    Database.setToken key (Frame.framed token) (rows.map checkpointRow) =
      (rows.map fun row => if row.1 = key.encode then (row.1, token) else row).map checkpointRow := by
  rw [Database.setToken, List.map_map, List.map_map]
  refine List.map_congr_left fun row _ => ?_
  simp only [Function.comp_apply, checkpointRow, Database.keyCell, Cell.text.injEq]
  split <;> rfl

/-- The rows of a pair are added behind all others. -/
theorem checkpointRows_append (rows : List (String × Option Octets)) (reader writer : CheckpointKey) :
    rows.map checkpointRow ++ [(Database.keyCell reader, .blob (Frame.framed none)),
        (Database.keyCell writer, .blob (Frame.framed none))] =
      (rows ++ [(reader.encode, none), (writer.encode, none)]).map checkpointRow := by
  rw [List.map_append]
  rfl

/-- Tokens that fit a frame may be added to what a database can hold. -/
theorem Storable.addTokens (hs : Storable m) {reader writer : String × Option Octets}
    (hreader : Frame.Fits reader.2) (hwriter : Frame.Fits writer.2) :
    Storable { m with checkpoints := m.checkpoints ++ [reader, writer] } :=
  { hs with
    token_fits := List.forall_mem_append.mpr ⟨hs.token_fits,
      List.forall_mem_cons.mpr ⟨hreader, List.forall_mem_singleton.mpr hwriter⟩⟩ }

/-- A token may be replaced by one that fits a frame. -/
theorem Storable.setToken (hs : Storable m) {key : CheckpointKey} {token : Option Octets}
    (htoken : Frame.Fits token) : Storable (m.setToken key token) :=
  { hs with
    token_fits := forall_changeRow Prod.fst (k := key.encode) (f := fun row => (row.1, token))
      hs.token_fits fun _ _ _ => htoken }

variable (hs : Storable m)

include hs

/-- A pair is inserted, or there already as it is in memory. -/
theorem follows_createPair (id : InstanceId) (step : String) :
    Follows (Database.createPair id step (Frame.framed none) m.database) (m.createPair id step) := by
  rw [Database.createPair, createPair, need_checkpoints, ok_bind, lookup_keyCell, lookup_keyCell,
    Option.isSome_map, Option.isSome_map]
  split
  · exact .error
  · rw [checkpointRows_append]
    exact .ok (hs.addTokens fits_none fits_none)

/-- A pair is replaced, or missing as it is in memory. -/
theorem follows_updatePair (id : InstanceId) (step : String) {pair : CheckpointPair}
    (hreader : Frame.Fits pair.reader) (hwriter : Frame.Fits pair.writer) :
    Follows (Database.updatePair id step (Frame.framed pair.reader) (Frame.framed pair.writer)
      m.database) (m.updatePair id step pair) := by
  rw [Database.updatePair, updatePair, need_checkpoints, ok_bind, lookup_keyCell, lookup_keyCell,
    Option.isNone_map, Option.isNone_map]
  split
  · exact .error
  · rw [checkpointRows_setToken, checkpointRows_setToken]
    exact .ok ((hs.setToken hreader).setToken hwriter)

end Tokens

end Memory

end JobLedger
