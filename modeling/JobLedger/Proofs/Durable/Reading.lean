import JobLedger.Proofs.Durable.Contents
import JobLedger.Proofs.Durable.Queries

/-!
# What queries read

A query for one record reads it exactly if every column that it is made of holds it: a status record
is kept under its own number, and the tokens of a step come in pairs. It finds nothing only where
there is nothing, and of the status records of a step it reads the one under the lowest row.
-/

namespace JobLedger

open Text

/-! ## Rows in their order -/

/-- The rows of a table stand in the order of their numbers, which are integers of 64 bits. -/
structure Table.Ordered {ρ : Type} (t : Table ρ) : Prop where
  sorted : t.rows.Pairwise fun a b => a.1 < b.1
  fits : ∀ entry ∈ t.rows, FitsSigned entry.1

namespace Table.Ordered

variable {ρ : Type} {t : Table ρ} (h : t.Ordered) {row : Int} {r : ρ}

include h

/-- In a table with distinct numbers a row is there if it is found. -/
theorem mem_rows_iff : (row, r) ∈ t.rows ↔ t.find? row = some r :=
  (lookup_eq_some_iff (h.sorted.imp fun hlt => Int.ne_of_lt hlt)).symm

/-- The number of a row that is found fits a signed word. -/
theorem fits_of_find? (hfind : t.find? row = some r) : FitsSigned row :=
  h.fits _ (h.mem_rows_iff.mpr hfind)

end Table.Ordered

section Sorted

variable {ρ : Type} {rows : List (Int × ρ)} {p : Int → Bool}

/-- Of sorted rows, the first one with a property of its number is the one of the lowest number that
has the property and a row. -/
theorem find?_eq_some_iff_lowest (hsorted : rows.Pairwise fun a b => a.1 < b.1) {n : Int} {r : ρ} :
    (rows.find? fun entry => p entry.1) = some (n, r) ↔
      p n = true ∧ rows.lookup n = some r ∧ ∀ k, k < n → p k = true → rows.lookup k = none := by
  simp only [List.find?_eq_some_iff_append, List.lookup_eq_some_iff, List.lookup_eq_none_iff,
    bne_iff_ne]
  refine and_congr_right fun _ => ⟨?_, ?_⟩
  · rintro ⟨before, behind, rfl, hbefore⟩
    obtain ⟨-, hnext, hlt⟩ := List.pairwise_append.mp hsorted
    have hlow : ∀ entry ∈ before, entry.1 < n := fun entry hentry =>
      hlt entry hentry _ List.mem_cons_self
    refine ⟨⟨before, behind, rfl, fun entry hentry => (Int.ne_of_lt (hlow entry hentry)).symm⟩, ?_⟩
    rintro k hk hp entry hentry rfl
    rcases List.mem_append.mp hentry with hentry | hentry
    · have hnot := hbefore entry hentry
      rw [hp] at hnot
      exact nomatch hnot
    · rcases List.mem_cons.mp hentry with rfl | hentry
      · exact Int.lt_irrefl _ hk
      · have hbehind := (List.pairwise_cons.mp hnext).1 entry hentry
        omega
  · rintro ⟨⟨before, behind, rfl, -⟩, hlowest⟩
    refine ⟨before, behind, rfl, fun entry hentry => ?_⟩
    have hlow : entry.1 < n :=
      (List.pairwise_append.mp hsorted).2.2 entry hentry _ List.mem_cons_self
    rw [Bool.not_eq_true']
    refine Bool.eq_false_iff.mpr fun hp => ?_
    exact hlowest entry.1 hlow hp entry (List.mem_append_left _ hentry) rfl

/-- No entry is found by a condition on keys if none is bound to such a key. -/
theorem find?_eq_none_iff_lookup :
    (rows.find? fun entry => p entry.1) = none ↔ ∀ k, p k = true → rows.lookup k = none := by
  simp only [List.find?_eq_none, List.lookup_eq_none_iff, bne_iff_ne]
  constructor
  · rintro h k hp entry hentry rfl
    exact h entry hentry hp
  · intro h entry hentry hp
    exact h entry.1 hp entry hentry rfl

end Sorted

/-! ## What is kept where -/

namespace Database

variable (db : Database)

/-- The row of an instance. -/
def instance? (row : Int) : Option InstanceRow := db.instances.bind fun t => t.find? row

/-- The row of an execution. -/
def execution? (row : Int) : Option ExecutionRow := db.executions.bind fun t => t.find? row

/-- The row of a step execution. -/
def step? (row : Int) : Option StepRow := db.steps.bind fun t => t.find? row

/-- The cell of the status record of an instance. -/
def jobStatus? (row : Int) : Option Cell := db.jobStatuses.bind fun t => t.find? row

/-- The cell of the status record of a step. -/
def stepStatus? (row : Int) : Option Cell := db.stepStatuses.bind fun t => t.find? row

/-- The cell of a token. -/
def checkpoint? (key : CheckpointKey) : Option Cell :=
  db.checkpoints.bind fun rows => rows.lookup (keyCell key)

/-- The rows that are looked for can be told apart and are those of somebody: tables have their rows
in order, and every execution belongs to an instance. Counters are integers of 64 bits. Apart from
that, columns may hold anything. -/
structure Intact : Prop where
  owned : ∀ row r, db.execution? row = some r →
    ∃ owner i, r.instanceId = .int owner ∧ db.instance? owner = some i
  counters_fit : ∀ row r, db.step? row = some r → ∀ i, .int i ∈ r.counters.toList → FitsSigned i
  steps_ordered : ∀ t, db.steps = some t → t.Ordered
  jobStatuses_ordered : ∀ t, db.jobStatuses = some t → t.Ordered
  stepStatuses_ordered : ∀ t, db.stepStatuses = some t → t.Ordered

/-- A row is that of an execution of a step of an instance. -/
def RunsStep (owner : Int) (step : String) (row : Int) : Prop :=
  ∃ r n e, db.step? row = some r ∧ r.stepName = .text step ∧ r.executionId = .int n ∧
    db.execution? n = some e ∧ e.instanceId = .int owner

/-- A cell is the one that counts for a step of an instance: of those that are kept under executions
of the step, the one under the lowest row. -/
def KeepsFirst (owner : Int) (step : String) (row : Int) (cell : Cell) : Prop :=
  db.RunsStep owner step row ∧ db.stepStatus? row = some cell ∧
    ∀ n, n < row → db.RunsStep owner step n → db.stepStatus? n = none

/-- The result of a query shows what is held: a record exactly if it is held, and nothing only if
there is nothing. -/
structure Reads {α : Type} (result : Except StoreError (Option α)) (lacks : Prop)
    (holds : α → Prop) : Prop where
  holds_iff : ∀ a, result = .ok (some a) ↔ holds a
  lacks_of_none : result = .ok none → lacks

namespace Reads

variable {α : Type} {lacks : Prop} {holds : α → Prop}

/-- A query that fails reads no record. -/
theorem error {e : StoreError} (h : ∀ a, ¬ holds a) : Reads (.error e) lacks holds :=
  ⟨fun a => iff_of_false nofun (h a), nofun⟩

/-- A query that finds nothing is right to do so if nothing is there. -/
theorem nothing (hlacks : lacks) (h : ∀ a, ¬ holds a) : Reads (.ok none) lacks holds :=
  ⟨fun a => iff_of_false nofun (h a), fun _ => hlacks⟩

/-- A query that always finds something reads what there is. -/
theorem found {x : Except StoreError α} (h : ∀ a, x = .ok a ↔ holds a) :
    Reads (x.map some) lacks holds where
  holds_iff a := by
    rw [← h, map_eq_ok_iff]
    simp
  lacks_of_none hnone := by
    obtain ⟨a, -, ha⟩ := map_eq_ok_iff.mp hnone
    exact nomatch ha

/-- A query of one row, which fails or finds nothing without it, reads what the row holds. -/
theorem of_row {ρ : Type} {result : Except StoreError (Option α)} {row? : Option ρ}
    {holds : ρ → α → Prop}
    (hmissing : row? = none → result = .ok none ∨ ∃ e, result = .error e)
    (hrow : ∀ r, row? = some r → ∃ x : Except StoreError α, result = x.map some ∧
      ∀ a, x = .ok a ↔ holds r a) :
    Reads result (row? = none) fun a => ∃ r, row? = some r ∧ holds r a := by
  cases hr : row? with
  | none =>
    obtain h | ⟨e, h⟩ := hmissing hr
    · exact h ▸ nothing rfl nofun
    · exact h ▸ error nofun
  | some r =>
    obtain ⟨x, rfl, hread⟩ := hrow r hr
    simp only [Option.some.injEq, exists_eq_left']
    exact found hread

/-- What a query reads may be said in other words. -/
theorem congr {result : Except StoreError (Option α)} {lacks' : Prop} {holds' : α → Prop}
    (h : Reads result lacks holds) (hlacks : lacks → lacks') (hholds : ∀ a, holds a ↔ holds' a) :
    Reads result lacks' holds' :=
  ⟨fun a => (h.holds_iff a).trans (hholds a), fun hnone => hlacks (h.lacks_of_none hnone)⟩

end Reads

variable {db}

/-- An optional result is made behind a sequence as in its last part. -/
theorem map_bind_some {ε α β : Type} (x : Except ε α) (f : α → Except ε β) :
    (x >>= fun a => (f a).map some) = (x >>= f).map some := by
  cases x <;> rfl

/-! ### Status records -/

/-- A blob is taken only from the row of the number that its value has. -/
theorem keptUnder_eq_ok_iff {α : Type} [JsonForm α] {entity : Entity} {operation : String}
    {place : BlobPlace} {cell : Cell} {key : α → Id entity} {other : α → StoreError} {row : Int}
    (hrow : row < signedLimit) {value : α} :
    (do
      let frame ← cell.readBlob operation
      let found ← storedValue (Codec.json α) place frame
      let held ← rowOf (key found)
      if held ≠ row then .error (other found) else .ok found) = .ok value ↔
      cell.HoldsValue value ∧ (key value).number = row := by
  rw [← @readBlob_storedValue_eq_ok_iff _ _ operation place]
  simp only [bind_eq_ok_iff, rowOf_eq_ok_iff]
  constructor
  · rintro ⟨frame, hframe, found, hvalue, held, ⟨-, hheld⟩, hfound⟩
    split at hfound
    · exact nomatch hfound
    · next hsame =>
      obtain rfl := Except.ok.inj hfound
      exact ⟨⟨frame, hframe, hvalue⟩, hheld.trans (Decidable.not_not.mp hsame)⟩
  · rintro ⟨⟨frame, hframe, hvalue⟩, rfl⟩
    exact ⟨frame, hframe, value, hvalue, _, ⟨hrow, rfl⟩, if_neg (not_not_intro rfl)⟩

/-- The status record is looked up under the instance that an execution refers to. -/
theorem jobStatusOf_eq {id : ExecutionId} {row owner : Int} {r : ExecutionRow}
    (hr : db.execution? row = some r) (howner : r.instanceId = .int owner) :
    jobStatusOf id row db = findJobStatus owner db := by
  obtain ⟨t, ht, hfind⟩ := Option.bind_eq_some_iff.mp hr
  rw [jobStatusOf, ht, Memory.need_some, ok_bind, hfind]
  dsimp only
  rw [howner]
  rfl

section Queries

variable (h : db.Intact)

include h

/-- A status record is read if its cell holds one, of the instance that it is found under. -/
theorem reads_jobStatus (row : Int) : Reads (findJobStatus row db) (db.jobStatus? row = none)
    fun status => ∃ cell, db.jobStatus? row = some cell ∧ cell.HoldsValue status ∧
      status.instanceId.number = row := by
  refine .of_row (fun hnone => ?_) fun cell hcell => ?_
  · rw [findJobStatus]
    cases ht : db.jobStatuses with
    | none => exact .inr ⟨_, rfl⟩
    | some t =>
      rw [jobStatus?, ht, Option.bind_some] at hnone
      rw [Memory.need_some, ok_bind, hnone]
      exact .inl rfl
  · obtain ⟨t, ht, hfind⟩ := Option.bind_eq_some_iff.mp hcell
    rw [findJobStatus, ht, Memory.need_some, ok_bind, hfind]
    refine ⟨_, map_bind_some _ _, fun status => keptUnder_eq_ok_iff ?_⟩
    exact ((h.jobStatuses_ordered t ht).fits_of_find? hfind).2

/-- From an execution, a status record is read if the reference leads to one. -/
theorem reads_jobStatusOf (id : ExecutionId) (row : Int) : Reads (jobStatusOf id row db)
    (∃ r owner, db.execution? row = some r ∧ r.instanceId = .int owner ∧
      db.jobStatus? owner = none)
    fun status => ∃ r, db.execution? row = some r ∧
      r.instanceId = .int status.instanceId.number ∧
        ∃ cell, db.jobStatus? status.instanceId.number = some cell ∧ cell.HoldsValue status := by
  cases hr : db.execution? row with
  | none =>
    have hfails : ∃ e, jobStatusOf id row db = .error e := by
      rw [jobStatusOf]
      cases ht : db.executions with
      | none => exact ⟨_, rfl⟩
      | some t =>
        rw [execution?, ht, Option.bind_some] at hr
        rw [Memory.need_some, ok_bind, hr]
        exact ⟨_, rfl⟩
    obtain ⟨e, he⟩ := hfails
    rw [he]
    refine .error ?_
    rintro status ⟨r, hnone, -⟩
    exact nomatch hnone
  | some r =>
    obtain ⟨owner, i, howner, -⟩ := h.owned row r hr
    rw [jobStatusOf_eq hr howner]
    refine (reads_jobStatus h owner).congr (fun hnone => ⟨r, owner, rfl, howner, hnone⟩)
      fun status => ?_
    simp only [Option.some.injEq, exists_eq_left', howner, Cell.int.injEq]
    constructor
    · rintro ⟨cell, hcell, hvalue, rfl⟩
      exact ⟨rfl, cell, hcell, hvalue⟩
    · rintro ⟨rfl, cell, hcell, hvalue⟩
      exact ⟨cell, hcell, hvalue, rfl⟩

/-! ### Records of the history -/

/-- A step execution is read if all cells of its row hold what they should. -/
theorem reads_step (row : Int) : Reads (findStep row db) (db.step? row = none)
    fun s => ∃ r, db.step? row = some r ∧ row = s.id.number ∧ r.Holds s := by
  refine .of_row (fun hnone => ?_) fun r hr => ?_
  · rw [findStep]
    cases ht : db.steps with
    | none => exact .inr ⟨_, rfl⟩
    | some t =>
      rw [step?, ht, Option.bind_some] at hnone
      rw [Memory.need_some, ok_bind, hnone]
      exact .inl rfl
  · obtain ⟨t, ht, hfind⟩ := Option.bind_eq_some_iff.mp hr
    rw [findStep, ht, Memory.need_some, ok_bind, hfind]
    refine ⟨_, map_bind_some _ _, fun s => ?_⟩
    rw [bind_eq_ok_iff]
    exact StepRow.reads_iff (h.counters_fit row r hr)

/-- An execution is read if the cells of its row and of the row of its instance hold what they
should. -/
theorem reads_execution (row : Int) : Reads (findExecution row db) (db.execution? row = none)
    fun e => ∃ r, db.execution? row = some r ∧ ∃ i, db.instance? e.instanceId.number = some i ∧
      row = e.id.number ∧ r.Holds i e := by
  refine .of_row (fun hnone => ?_) fun r hr => ?_
  · rw [findExecution]
    cases ht : db.executions with
    | none => exact .inr ⟨_, rfl⟩
    | some t =>
      rw [execution?, ht, Option.bind_some] at hnone
      rw [Memory.need_some, ok_bind]
      cases hi : db.instances with
      | none => exact .inr ⟨_, rfl⟩
      | some instances =>
        rw [Memory.need_some, ok_bind, hnone]
        exact .inl rfl
  · obtain ⟨owner, i, howner, hi⟩ := h.owned row r hr
    obtain ⟨t, ht, hfind⟩ := Option.bind_eq_some_iff.mp hr
    obtain ⟨instances, hinstances, hfound⟩ := Option.bind_eq_some_iff.mp hi
    have howned : owner? instances r = some i := by
      rw [owner?, howner]
      exact hfound
    rw [findExecution, ht, hinstances, Memory.need_some, Memory.need_some, ok_bind, ok_bind, hfind]
    dsimp only
    rw [howned]
    refine ⟨_, map_bind_some _ _, fun e => ?_⟩
    rw [bind_eq_ok_iff, ExecutionRow.reads_iff]
    -- The row refers to one instance only, which is that of the record.
    have hsame {e : JobExecution} {j : InstanceRow} (hholds : r.Holds j e) :
        owner = e.instanceId.number :=
      Cell.int.inj (howner.symm.trans hholds.instanceId)
    constructor
    · rintro ⟨hid, hholds⟩
      exact ⟨i, hsame hholds ▸ hi, hid, hholds⟩
    · rintro ⟨j, hj, hid, hholds⟩
      rw [← hsame hholds, hi] at hj
      obtain rfl := Option.some.inj hj
      exact ⟨hid, hholds⟩

omit h in
/-- Parameters are read if the blob in the row of the execution holds some. -/
theorem reads_parameters (id : ExecutionId) (row : Int) :
    Reads ((parametersOf id row db).map some) False
      fun parameters => ∃ r, db.execution? row = some r ∧ r.parameters.HoldsValue parameters := by
  refine .found fun parameters => ?_
  rw [parametersOf]
  cases ht : db.executions with
  | none => simp [need, execution?, ht, bind, Except.bind]
  | some t =>
    rw [Memory.need_some, ok_bind, execution?, ht, Option.bind_some]
    cases hr : t.find? row with
    | none => simp
    | some r =>
      simp only [Option.some.injEq, exists_eq_left']
      exact readBlob_storedValue_eq_ok_iff

/-! ### Status records of steps -/

omit h in
/-- The owner of a step execution is what its reference leads to. -/
theorem ownerOfStep?_eq_some_iff {executions : Table ExecutionRow} {r : StepRow} {n : Int}
    {e : ExecutionRow} : ownerOfStep? executions r = some (n, e) ↔
      r.executionId = .int n ∧ executions.find? n = some e := by
  rw [ownerOfStep?]
  cases r.executionId with
  | int m =>
    simp only [Option.map_eq_some_iff, Prod.mk.injEq, Cell.int.injEq]
    constructor
    · rintro ⟨e, he, rfl, rfl⟩
      exact ⟨rfl, he⟩
    · rintro ⟨rfl, he⟩
      exact ⟨e, he, rfl, rfl⟩
  | _ => simp

omit h in
/-- The rows of the executions of a step, as a query joins them. -/
theorem contains_runs_iff {executions : Table ExecutionRow} {steps : Table StepRow}
    (hexecutions : db.executions = some executions) (hsteps : db.steps = some steps)
    (hordered : steps.Ordered) (owner : Int) (step : String) (n : Int) :
    (((stepsWithOwner executions steps).filter fun entry =>
      entry.2.2.instanceId = .int owner && entry.2.1.stepName = .text step).map
        Prod.fst).contains n = true ↔ db.RunsStep owner step n := by
  simp only [List.contains_iff_mem, List.mem_map, List.mem_filter, stepsWithOwner,
    List.mem_filterMap, Option.map_eq_some_iff, Bool.and_eq_true, decide_eq_true_eq]
  constructor
  · rintro ⟨_, ⟨⟨⟨row, r⟩, hmem, ⟨m, e⟩, howner, rfl⟩, hinstance, hname⟩, rfl⟩
    obtain ⟨hrefers, he⟩ := ownerOfStep?_eq_some_iff.mp howner
    refine ⟨r, m, e, ?_, hname, hrefers, ?_, hinstance⟩
    · rw [step?, hsteps, Option.bind_some]
      exact hordered.mem_rows_iff.mp hmem
    · rw [execution?, hexecutions, Option.bind_some]
      exact he
  · rintro ⟨r, m, e, hr, hname, hrefers, he, hinstance⟩
    rw [step?, hsteps, Option.bind_some] at hr
    rw [execution?, hexecutions, Option.bind_some] at he
    exact ⟨(n, r, e), ⟨⟨(n, r), hordered.mem_rows_iff.mpr hr, (m, e),
      ownerOfStep?_eq_some_iff.mpr ⟨hrefers, he⟩, rfl⟩, hinstance, hname⟩, rfl⟩

omit h in
/-- One cell only counts for a step. -/
theorem KeepsFirst.unique {owner : Int} {step : String} {row row' : Int} {cell cell' : Cell}
    (hkeeps : db.KeepsFirst owner step row cell) (hkeeps' : db.KeepsFirst owner step row' cell') :
    row = row' ∧ cell = cell' := by
  obtain ⟨hruns, hcell, hlowest⟩ := hkeeps
  obtain ⟨hruns', hcell', hlowest'⟩ := hkeeps'
  have hnotlt : ¬ row < row' := fun hlt => by
    rw [hlowest' row hlt hruns] at hcell
    exact nomatch hcell
  have hnotlt' : ¬ row' < row := fun hlt => by
    rw [hlowest row' hlt hruns'] at hcell'
    exact nomatch hcell'
  obtain rfl : row = row' := by omega
  exact ⟨rfl, Option.some.inj (hcell.symm.trans hcell')⟩

omit h in
/-- What is kept for a step is in tables that are there. -/
theorem KeepsFirst.exists_tables {owner : Int} {step : String} {row : Int} {cell : Cell}
    (hkeeps : db.KeepsFirst owner step row cell) : ∃ statuses steps executions,
      db.stepStatuses = some statuses ∧ db.steps = some steps ∧ db.executions = some executions := by
  obtain ⟨⟨r, n, e, hr, -, -, he, -⟩, hcell, -⟩ := hkeeps
  obtain ⟨statuses, hstatuses, -⟩ := Option.bind_eq_some_iff.mp hcell
  obtain ⟨steps, hsteps, -⟩ := Option.bind_eq_some_iff.mp hr
  obtain ⟨executions, hexecutions, -⟩ := Option.bind_eq_some_iff.mp he
  exact ⟨statuses, steps, executions, hstatuses, hsteps, hexecutions⟩

omit h in
/-- In tables that are in order, a query for the status record of a step comes upon the cell that
counts for it, or upon none. -/
theorem findStepStatus_cases {statuses : Table Cell} {steps : Table StepRow}
    {executions : Table ExecutionRow} (hstatuses : db.stepStatuses = some statuses)
    (hsteps : db.steps = some steps) (hexecutions : db.executions = some executions)
    (hordered : statuses.Ordered) (hrows : steps.Ordered) (owner : Int) (step : String) :
    ((∀ row, db.RunsStep owner step row → db.stepStatus? row = none) ∧
        findStepStatus owner step db = .ok none) ∨
      ∃ row cell, db.KeepsFirst owner step row cell ∧ row < signedLimit ∧
        findStepStatus owner step db =
          (cell.readBlob "get step status" >>= storedStepStatus row).map some := by
  have hlookup (row : Int) : statuses.rows.lookup row = db.stepStatus? row := by
    rw [stepStatus?, hstatuses]
    rfl
  have hruns := contains_runs_iff hexecutions hsteps hrows owner step
  rw [findStepStatus, hstatuses, hsteps, hexecutions, Memory.need_some, Memory.need_some,
    Memory.need_some, ok_bind, ok_bind, ok_bind]
  dsimp only
  generalize ((stepsWithOwner executions steps).filter fun entry =>
    entry.2.2.instanceId = .int owner && entry.2.1.stepName = .text step).map Prod.fst = own
    at hruns ⊢
  cases hfirst : statuses.rows.find? fun entry => own.contains entry.1 with
  | none =>
    have hnone := find?_eq_none_iff_lookup.mp hfirst
    simp only [hruns, hlookup] at hnone
    exact .inl ⟨hnone, rfl⟩
  | some entry =>
    obtain ⟨row, cell⟩ := entry
    have hkeeps := (find?_eq_some_iff_lowest hordered.sorted).mp hfirst
    have hfits := (hordered.fits_of_find? hkeeps.2.1).2
    simp only [hruns, hlookup] at hkeeps
    exact .inr ⟨row, cell, hkeeps, hfits, map_bind_some _ _⟩

/-- The status of a step is read if the first record found for it holds one. -/
theorem reads_stepStatus (owner : Int) (step : String) : Reads (findStepStatus owner step db)
    (∀ row, db.RunsStep owner step row → db.stepStatus? row = none)
    fun status => ∃ row cell, db.KeepsFirst owner step row cell ∧ cell.HoldsValue status ∧
      status.statusId.number = row := by
  by_cases htables : ∃ statuses steps executions, db.stepStatuses = some statuses ∧
      db.steps = some steps ∧ db.executions = some executions
  · obtain ⟨statuses, steps, executions, hstatuses, hsteps, hexecutions⟩ := htables
    obtain ⟨hnone, heq⟩ | ⟨row, cell, hkeeps, hfits, heq⟩ := findStepStatus_cases hstatuses hsteps
      hexecutions (h.stepStatuses_ordered statuses hstatuses) (h.steps_ordered steps hsteps) owner
      step
    · rw [heq]
      refine .nothing hnone ?_
      rintro status ⟨row, cell, ⟨hrow, hcell, -⟩, -⟩
      rw [hnone row hrow] at hcell
      exact nomatch hcell
    · rw [heq]
      refine .found fun status => ?_
      constructor
      · intro hread
        exact ⟨row, cell, hkeeps, (keptUnder_eq_ok_iff hfits).mp hread⟩
      · rintro ⟨_, _, hkeeps', hholds⟩
        obtain ⟨rfl, rfl⟩ := KeepsFirst.unique hkeeps hkeeps'
        exact (keptUnder_eq_ok_iff hfits).mpr hholds
  · have hfails : ∃ e, findStepStatus owner step db = .error e := by
      rw [findStepStatus]
      cases hstatuses : db.stepStatuses with
      | none => exact ⟨_, rfl⟩
      | some statuses =>
        cases hsteps : db.steps with
        | none => exact ⟨_, rfl⟩
        | some steps =>
          cases hexecutions : db.executions with
          | none => exact ⟨_, rfl⟩
          | some executions =>
            exact absurd ⟨statuses, steps, executions, hstatuses, hsteps, hexecutions⟩ htables
    obtain ⟨e, he⟩ := hfails
    rw [he]
    refine .error ?_
    rintro status ⟨row, cell, hkeeps, -⟩
    exact htables hkeeps.exists_tables

end Queries

/-! ### Pairs of tokens -/

theorem eq_none_of_rel {α β : Type} {r : α → β → Prop} {x : Option α} (h : Option.Rel r x none) :
    x = none := by
  cases h
  rfl

theorem exists_of_rel {α β : Type} {r : α → β → Prop} {x : Option α} {b : β}
    (h : Option.Rel r x (some b)) : ∃ a, x = some a ∧ r a b := by
  cases h with
  | some hab => exact ⟨_, rfl, hab⟩

/-- A token is read from the cell that holds it, and where there is no cell there is none. -/
theorem token_reads_iff {operation : String} {key : CheckpointKey} {cell : Option Cell}
    {token : Option (Option Octets)} :
    (∃ frame, tokenCell operation cell = .ok frame ∧ tokenOf key frame = .ok token) ↔
      Option.Rel Cell.HoldsToken cell token := by
  cases cell with
  | none =>
    simp only [tokenCell, Except.ok.injEq, exists_eq_left', tokenOf]
    constructor
    · rintro rfl
      exact .none
    · rintro ⟨⟩
      rfl
  | some cell =>
    simp only [tokenCell, map_eq_ok_iff, Cell.readBlob_eq_ok_iff]
    constructor
    · rintro ⟨_, ⟨frame, hcell, rfl⟩, htoken⟩
      obtain ⟨found, hfound, rfl⟩ := map_eq_ok_iff.mp htoken
      exact .some ⟨frame, hcell, storedToken_eq_ok_iff.mp hfound⟩
    · rintro ⟨⟨frame, hcell, hframe⟩⟩
      refine ⟨_, ⟨frame, hcell, rfl⟩, ?_⟩
      rw [tokenOf, storedToken_eq_ok_iff.mpr hframe]
      rfl

/-- What is found of a pair is what is found of both of its tokens. -/
theorem findPair_eq_ok_iff {id : InstanceId} {step : String} {rows : List (Cell × Cell)}
    (hrows : db.checkpoints = some rows) {found : Option CheckpointPair} :
    findPair id step db = .ok found ↔ ∃ reader writer,
      Option.Rel Cell.HoldsToken (db.checkpoint? (.ofPair id step .reader)) reader ∧
        Option.Rel Cell.HoldsToken (db.checkpoint? (.ofPair id step .writer)) writer ∧
          ((reader = none ∧ writer = none ∧ found = none) ∨ ∃ pair : CheckpointPair,
            reader = some pair.reader ∧ writer = some pair.writer ∧ found = some pair) := by
  have hlookup (kind : CheckpointKind) :
      rows.lookup (keyCell (.ofPair id step kind)) = db.checkpoint? (.ofPair id step kind) := by
    rw [checkpoint?, hrows]
    rfl
  rw [findPair, hrows, Memory.need_some, ok_bind]
  simp only [bind_eq_ok_iff, hlookup]
  constructor
  · rintro ⟨readerFrame, hreaderFrame, writerFrame, hwriterFrame, reader, hreader, writer, hwriter,
      hfound⟩
    refine ⟨reader, writer, token_reads_iff.mp ⟨_, hreaderFrame, hreader⟩,
      token_reads_iff.mp ⟨_, hwriterFrame, hwriter⟩, ?_⟩
    cases reader with
    | none =>
      cases writer with
      | none => exact .inl ⟨rfl, rfl, (Except.ok.inj hfound).symm⟩
      | some w => exact nomatch hfound
    | some r =>
      cases writer with
      | none => exact nomatch hfound
      | some w => exact .inr ⟨⟨r, w⟩, rfl, rfl, (Except.ok.inj hfound).symm⟩
  · rintro ⟨reader, writer, hreader, hwriter, hfound⟩
    obtain ⟨readerFrame, hreaderFrame, hreader⟩ := token_reads_iff.mpr hreader
    obtain ⟨writerFrame, hwriterFrame, hwriter⟩ := token_reads_iff.mpr hwriter
    refine ⟨readerFrame, hreaderFrame, writerFrame, hwriterFrame, reader, hreader, writer, hwriter,
      ?_⟩
    obtain ⟨rfl, rfl, rfl⟩ | ⟨pair, rfl, rfl, rfl⟩ := hfound
    · rfl
    · rfl

/-- A pair is read if both its rows hold tokens, and is missing if both are. -/
theorem reads_pair (id : InstanceId) (step : String) : Reads (findPair id step db)
    (∀ kind, db.checkpoint? (.ofPair id step kind) = none)
    fun pair => ∀ kind, ∃ cell, db.checkpoint? (.ofPair id step kind) = some cell ∧
      cell.HoldsToken (pair.token kind) := by
  cases hrows : db.checkpoints with
  | none =>
    rw [findPair, hrows]
    refine .error fun pair hholds => ?_
    obtain ⟨cell, hcell, -⟩ := hholds .reader
    rw [checkpoint?, hrows] at hcell
    exact nomatch hcell
  | some rows =>
    refine ⟨fun pair => ?_, fun hnone => ?_⟩
    · rw [findPair_eq_ok_iff hrows]
      constructor
      · rintro ⟨reader, writer, hreader, hwriter, ⟨-, -, hnone⟩ | ⟨_, rfl, rfl, hsame⟩⟩
        · exact nomatch hnone
        · obtain rfl := Option.some.inj hsame
          rintro (_ | _)
          · exact exists_of_rel hreader
          · exact exists_of_rel hwriter
      · intro hholds
        obtain ⟨readerCell, hreaderCell, hreader⟩ := hholds .reader
        obtain ⟨writerCell, hwriterCell, hwriter⟩ := hholds .writer
        rw [hreaderCell, hwriterCell]
        exact ⟨_, _, .some hreader, .some hwriter, .inr ⟨pair, rfl, rfl, rfl⟩⟩
    · obtain ⟨reader, writer, hreader, hwriter, ⟨rfl, rfl, -⟩ | ⟨_, -, -, hsome⟩⟩ :=
        (findPair_eq_ok_iff hrows).mp hnone
      · rintro (_ | _)
        · exact eq_none_of_rel hreader
        · exact eq_none_of_rel hwriter
      · exact nomatch hsome

end Database

end JobLedger
