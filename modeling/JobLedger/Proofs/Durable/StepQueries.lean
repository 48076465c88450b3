import JobLedger.Proofs.Durable.Queries

/-!
# Queries about steps and progress

The step executions, the status records and the restart tokens that a database gives back are those
of the ledger that it holds. Where the ledger in memory goes through the steps of an instance and
takes the first one with a status record, the database goes through the status records.
-/

namespace JobLedger

open Text

/-- The first entries of a mapped list are those of the list, mapped. -/
theorem distinctBy_map {α β κ : Type} [DecidableEq κ] (f : α → β) (key : β → κ) (l : List α) :
    distinctBy key (l.map f) = (distinctBy (fun a => key (f a)) l).map f := by
  induction l with
  | nil => rfl
  | cons a rest ih =>
    rw [List.map_cons, distinctBy, ih, distinctBy, List.map_cons, List.filter_map]
    rfl

/-- The first row whose number is among given ones is the row of the first of the numbers that have
a row, when both are in order. -/
theorem find?_eq_findSome? {ρ : Type} {rows : List (Int × ρ)} {numbers : List Int}
    (hdistinct : DistinctKeys Prod.fst rows) (hrows : rows.Pairwise fun a b => a.1 ≤ b.1)
    (hnumbers : numbers.Pairwise fun a b => a < b) :
    (rows.find? fun entry => numbers.contains entry.1) =
      numbers.findSome? fun n => (rows.lookup n).map fun r => (n, r) := by
  cases hfirst : numbers.findSome? fun n => (rows.lookup n).map fun r => (n, r) with
  | none =>
    rw [List.findSome?_eq_none_iff] at hfirst
    rw [List.find?_eq_none]
    intro entry hentry hnumber
    have hlookup := hfirst entry.1 (List.contains_iff_mem.mp hnumber)
    rw [(lookup_eq_some_iff hdistinct).mpr hentry] at hlookup
    exact nomatch hlookup
  | some found =>
    obtain ⟨before, n, after, rfl, hn, hbefore⟩ := List.findSome?_eq_some_iff.mp hfirst
    obtain ⟨r, hr, rfl⟩ := Option.map_eq_some_iff.mp hn
    obtain ⟨above, below, rfl⟩ := List.append_of_mem ((lookup_eq_some_iff hdistinct).mp hr)
    rw [List.find?_eq_some_iff_append]
    refine ⟨by simp, above, below, rfl, fun entry hentry => ?_⟩
    have hmem : entry ∈ above ++ (n, r) :: below := List.mem_append_left _ hentry
    have hle : entry.1 ≤ n :=
      (List.pairwise_append.mp hrows).2.2 entry hentry (n, r) List.mem_cons_self
    have hne : entry.1 ≠ n :=
      (List.pairwise_append.mp hdistinct).2.2 entry hentry (n, r) List.mem_cons_self
    have hnot : entry.1 ∉ before ++ n :: after := by
      intro hnumber
      rcases List.mem_append.mp hnumber with hnumber | hnumber
      · have hlookup := hbefore entry.1 hnumber
        rw [(lookup_eq_some_iff hdistinct).mpr hmem] at hlookup
        exact nomatch hlookup
      · rcases List.mem_cons.mp hnumber with heq | hnumber
        · exact hne heq
        · have hlt := (List.pairwise_cons.mp (List.pairwise_append.mp hnumbers).2.1).1 _ hnumber
          omega
    rw [← List.contains_iff_mem, Bool.not_eq_true] at hnot
    simp only [hnot, Bool.not_false]

namespace Memory

variable {m : Memory}

/-- A step execution is read back from its row. -/
theorem findStep_eq (h : WellFormed m) (hs : Storable m) (id : StepId) :
    Database.findStep id.number m.database = .ok (m.step? id) := by
  rw [Database.findStep, database, Database.need, ok_bind, find?_stepTable]
  cases hstep : m.step? id with
  | none => rfl
  | some s =>
    obtain ⟨hmem, rfl⟩ := h.step?_eq_some_iff.mp hstep
    rw [Option.map_some]
    dsimp only
    rw [values_stepRow, ok_bind, record_stepValues (hs.userData_fits s hmem)]
    rfl

/-- The step executions of an execution are read back in the order of their rows. -/
theorem stepsOf_eq (hs : Storable m) (id : ExecutionId) :
    Database.stepsOf id.number m.database = .ok (m.stepsOf id) := by
  have hfilter : (m.stepTable.rows.filter fun entry => entry.2.executionId = .int id.number) =
      (m.stepsOf id).map (numberedRow StepExecution.id stepRow) := by
    rw [stepTable, filter_rowsOf, rowsOf, stepsOf]
    refine congrArg (List.map _) (List.filter_congr fun s _ => ?_)
    simp only [numberedRow, stepRow, numberCell_inj]
  have hvalues := mapM_map_ok (g := stepValues)
    (f := fun entry : Int × StepRow => entry.2.values "step executions" entry.1)
    (k := numberedRow StepExecution.id stepRow) (l := m.stepsOf id) fun s _ => values_stepRow _ s
  have hrecords := mapM_map_ok (g := fun s : StepExecution => s) (f := StepValues.record)
    (k := stepValues) (l := m.stepsOf id) fun s hmem =>
      record_stepValues (hs.userData_fits s (List.mem_filter.mp hmem).1)
  rw [Database.stepsOf, database, Database.need, ok_bind]
  dsimp only
  rw [hfilter, hvalues, ok_bind, hrecords, List.map_id']

/-- The step executions of an instance with their executions are those of the instance. -/
theorem map_fst_filter_withExecution (h : WellFormed m) (id : InstanceId) :
    (m.withExecution.filter fun pair => pair.2.instanceId = id).map Prod.fst =
      m.stepsOfInstance id := by
  have hfilter : m.withExecution.filter (fun pair => pair.2.instanceId = id) =
      m.withExecution.filter fun pair =>
        (m.execution? pair.1.executionId).any fun e => e.instanceId = id :=
    List.filter_congr fun pair hpair => by
      rw [(mem_withExecution hpair).2, Option.any_some]
  rw [hfilter, stepsOfInstance]
  conv => rhs; rw [← map_fst_withExecution h]
  rw [List.filter_map]
  rfl

/-- The latest row of each step name is read back as the latest step execution. -/
theorem recentSteps_eq (h : WellFormed m) (hs : Storable m) (id : InstanceId) :
    Database.recentSteps id.number m.database = .ok (m.recentSteps id) := by
  have hfilter : ((m.withExecution.map fun pair =>
      ((pair.1.id.number : Int), stepRow pair.1, executionRow pair.2)).filter fun entry =>
        entry.2.2.instanceId = .int id.number) =
      (m.withExecution.filter fun pair => pair.2.instanceId = id).map fun pair =>
        ((pair.1.id.number : Int), stepRow pair.1, executionRow pair.2) := by
    rw [List.filter_map]
    refine congrArg (List.map _) (List.filter_congr fun pair _ => ?_)
    simp only [Function.comp_apply, executionRow, numberCell_inj]
  have hvalues := mapM_map_ok (g := fun pair : StepExecution × JobExecution => stepValues pair.1)
    (f := fun entry : Int × StepRow × ExecutionRow =>
      entry.2.1.values "step executions" entry.1)
    (k := fun pair => ((pair.1.id.number : Int), stepRow pair.1, executionRow pair.2))
    (l := (m.withExecution.filter fun pair => pair.2.instanceId = id).reverse)
    fun pair _ => values_stepRow _ pair.1
  have hsteps : ((m.withExecution.filter fun pair => pair.2.instanceId = id).reverse.map fun pair =>
      stepValues pair.1) = (m.stepsOfInstance id).reverse.map stepValues := by
    rw [← map_fst_filter_withExecution h, ← List.map_reverse, List.map_map]
    rfl
  have hrecords := mapM_map_ok (g := fun s : StepExecution => s) (f := StepValues.record)
    (k := stepValues) (l := m.recentSteps id) fun s hmem => by
      have hof := List.mem_reverse.mp (mem_of_mem_distinctBy hmem)
      exact record_stepValues (hs.userData_fits s (List.mem_filter.mp hof).1)
  rw [Database.recentSteps, database, Database.need, ok_bind, Database.need, ok_bind,
    stepsWithOwner_eq]
  dsimp only
  rw [hfilter, ← List.map_reverse, hvalues, ok_bind, hsteps, distinctBy_map]
  rw [List.map_id'] at hrecords
  exact hrecords

/-! ## Status records -/

section Statuses

variable (h : WellFormed m) (hs : Storable m)

include h hs

/-- A status record has a row, as its instance has one. -/
theorem jobStatus_number_lt {status : JobStatus} (hstatus : status ∈ m.jobStatuses) :
    (status.instanceId.number : Int) < signedLimit := by
  obtain ⟨i, hi, hid⟩ := h.jobStatus_owner status hstatus
  have hle := h.instance_le i hi
  have hlast := hs.lastInstance_lt
  rw [hid] at hle
  omega

/-- The status record of a step has a row, as its step execution has one. -/
theorem stepStatus_number_lt {status : StepStatus} (hstatus : status ∈ m.stepStatuses) :
    (status.statusId.number : Int) < signedLimit := by
  obtain ⟨s, hstep, hid⟩ := h.stepStatus_owner status hstatus
  have hle := h.step_le s hstep
  have hlast := hs.lastStep_lt
  rw [hid] at hle
  omega

/-- A status record is read back from the row of its instance. -/
theorem storedJobStatus_eq {status : JobStatus} (hstatus : status ∈ m.jobStatuses) :
    Database.storedJobStatus status.instanceId.number (blob status) = .ok status := by
  rw [Database.storedJobStatus, storedValue_blob (hs.jobStatus_fits status hstatus), ok_bind,
    rowOf_of_lt (jobStatus_number_lt h hs hstatus), ok_bind, if_neg (not_not_intro rfl)]

/-- The status record of a step is decoded from its row. -/
theorem storedStepStatus_eq {status : StepStatus} (hstatus : status ∈ m.stepStatuses) :
    Database.storedStepStatus status.statusId.number (blob status) = .ok status := by
  rw [Database.storedStepStatus, storedValue_blob (hs.stepStatus_fits status hstatus), ok_bind,
    rowOf_of_lt (stepStatus_number_lt h hs hstatus), ok_bind, if_neg (not_not_intro rfl)]

/-- The status record of an instance is read back from its row. -/
theorem findJobStatus_eq (id : InstanceId) :
    Database.findJobStatus id.number m.database = .ok (m.jobStatus? id) := by
  rw [Database.findJobStatus, database, Database.need, ok_bind, h.find?_jobStatusTable]
  cases hstatus : m.jobStatus? id with
  | none => rfl
  | some status =>
    obtain ⟨hmem, rfl⟩ := h.jobStatus?_eq_some_iff.mp hstatus
    rw [Option.map_some]
    dsimp only [recordCell, Cell.readBlob]
    rw [ok_bind, storedJobStatus_eq h hs hmem]
    rfl

/-- The status record is looked up under the instance in the row of an execution. -/
theorem jobStatusOf_eq (id : ExecutionId) :
    SameAnswer (Database.jobStatusOf id id.number m.database) (m.jobStatusOf id) := by
  have hfind (owner : InstanceId) := findJobStatus_eq h hs owner
  rw [SameAnswer, Database.jobStatusOf, jobStatusOf, Memory.execution_eq]
  have hneed : Database.need "job status for execution" m.database.executions =
      .ok m.executionTable := rfl
  rw [hneed, ok_bind, find?_executionTable]
  cases m.execution? id with
  | none => rfl
  | some e =>
    rw [Option.map_some]
    dsimp only [executionRow, Cell.readInt]
    rw [ok_bind, hfind]
    rfl

omit hs in
/-- The numbers of the step executions of a step of an instance. -/
theorem ownNumbers_eq (id : InstanceId) (step : String) :
    (((Database.stepsWithOwner m.executionTable m.stepTable).filter fun entry =>
      entry.2.2.instanceId = .int id.number && entry.2.1.stepName = .text step).map Prod.fst) =
        ((m.stepsOfInstance id).filter fun s => s.stepName = step).map fun s =>
          (s.id.number : Int) := by
  have hfilter : ((m.withExecution.map fun pair =>
      ((pair.1.id.number : Int), stepRow pair.1, executionRow pair.2)).filter fun entry =>
        entry.2.2.instanceId = .int id.number && entry.2.1.stepName = .text step) =
      ((m.withExecution.filter fun pair => pair.2.instanceId = id).filter fun pair =>
        pair.1.stepName = step).map fun pair =>
          ((pair.1.id.number : Int), stepRow pair.1, executionRow pair.2) := by
    rw [List.filter_map, List.filter_filter]
    refine congrArg (List.map _) (List.filter_congr fun pair _ => ?_)
    simp only [Function.comp_apply, executionRow, stepRow, numberCell_inj, Cell.text.injEq,
      Bool.and_comm]
  rw [stepsWithOwner_eq, hfilter, ← map_fst_filter_withExecution h, List.filter_map, List.map_map,
    List.map_map]
  rfl

/-- The first record among those of the step executions of a step is read back. -/
theorem findStepStatus_eq (id : InstanceId) (step : String) :
    Database.findStepStatus id.number step m.database = .ok (m.findStepStatus id step) := by
  have hsorted : (((m.stepsOfInstance id).filter fun s => s.stepName = step).map fun s =>
      (s.id.number : Int)).Pairwise fun a b => a < b := by
    rw [List.pairwise_map]
    exact ((h.steps_sorted.filter _).filter _).imp fun hlt => by omega
  have hfind := find?_eq_findSome?
    (distinctKeys_rowsOf h.stepStatuses_distinct |>.perm (sortRows_perm _).symm)
    (sortRows_sorted (rowsOf StepStatus.statusId recordCell m.stepStatuses)) hsorted
  have hlookup (s : StepExecution) : (m.stepStatusTable.rows.lookup (s.id.number : Int)).map
      (fun r => ((s.id.number : Int), r)) =
        (m.stepStatus? s.id).map (numberedRow StepStatus.statusId recordCell) := by
    have htable := h.find?_stepStatusTable s.id
    rw [Table.find?] at htable
    rw [htable, Option.map_map]
    cases hstatus : m.stepStatus? s.id with
    | none => rfl
    | some status =>
      obtain ⟨-, hid⟩ := h.stepStatus?_eq_some_iff.mp hstatus
      rw [Option.map_some, Option.map_some, numberedRow, hid]
      rfl
  have hfirst : (m.stepStatusTable.rows.find? fun entry =>
      (((m.stepsOfInstance id).filter fun s => s.stepName = step).map fun s =>
        (s.id.number : Int)).contains entry.1) =
      (m.findStepStatus id step).map (numberedRow StepStatus.statusId recordCell) := by
    refine hfind.trans ?_
    rw [List.findSome?_map, findStepStatus, List.map_findSome?]
    exact congrArg (fun f => List.findSome? f _) (funext hlookup)
  rw [Database.findStepStatus, database, Database.need, ok_bind, Database.need, ok_bind,
    Database.need, ok_bind]
  dsimp only
  rw [ownNumbers_eq h, hfirst]
  cases hstatus : m.findStepStatus id step with
  | none => rfl
  | some status =>
    obtain ⟨s, -, hs'⟩ := List.exists_of_findSome?_eq_some hstatus
    obtain ⟨hmem, -⟩ := h.stepStatus?_eq_some_iff.mp hs'
    rw [Option.map_some]
    dsimp only [numberedRow, recordCell, Cell.readBlob]
    rw [ok_bind, storedStepStatus_eq h hs hmem]
    rfl

end Statuses

/-! ## Restart tokens -/

/-- Tokens that a database can hold fit a frame. -/
theorem fits_of_token? (hs : Storable m) {key : CheckpointKey} {token : Option Octets}
    (htoken : m.token? key = some token) : Frame.Fits token := by
  obtain ⟨before, after, hrows, -⟩ := List.lookup_eq_some_iff.mp htoken
  refine hs.token_fits (key.encode, token) ?_
  rw [hrows]
  exact List.mem_append_right _ List.mem_cons_self

/-- Under the key of a token stands the frame of that token. -/
theorem lookup_keyCell (key : CheckpointKey) :
    (m.checkpoints.map checkpointRow).lookup (Database.keyCell key) =
      (m.token? key).map fun token => .blob (Frame.framed token) :=
  lookup_checkpointRows m.checkpoints key.encode

/-- A token is read back from its frame. -/
theorem tokenOf_framed {key : CheckpointKey} {token : Option Octets} (h : Frame.Fits token) :
    Database.tokenOf key (some (Frame.framed token)) = .ok (some token) := by
  rw [Database.tokenOf, storedToken_framed h]
  rfl

/-- A frame is read as the octets in its cell. -/
theorem tokenCell_blob (operation : String) (source : Octets) :
    Database.tokenCell operation (some (.blob source)) = .ok (some source) := rfl

/-- The tokens of a step are read back, both or none. -/
theorem findPair_eq (h : WellFormed m) (hs : Storable m) (id : InstanceId) (step : String) :
    SameAnswer (Database.findPair id step m.database) (m.findPair id step) := by
  obtain ⟨entries, hpairs⟩ := h.checkpoints_paired
  have hreader := hpairs.token? (id, step) .reader
  have hwriter := hpairs.token? (id, step) .writer
  rw [hpairs.findPair, SameAnswer, Database.findPair, database, Database.need, ok_bind]
  dsimp only at hreader hwriter ⊢
  rw [lookup_keyCell, lookup_keyCell, hreader, hwriter]
  cases hpair : entries.lookup (id, step) with
  | none => rfl
  | some pair =>
    rw [hpair, Option.map_some] at hreader hwriter
    rw [Option.map_some, Option.map_some, Option.map_some, Option.map_some, tokenCell_blob, ok_bind,
      tokenCell_blob, ok_bind, tokenOf_framed (fits_of_token? hs hreader), ok_bind,
      tokenOf_framed (fits_of_token? hs hwriter), ok_bind]
    rfl

end Memory

end JobLedger
