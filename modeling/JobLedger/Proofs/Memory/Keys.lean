import Mathlib.Data.String.Basic
import JobLedger.Proofs.Arranged
import JobLedger.Proofs.Memory.Atomic
import JobLedger.Proofs.Memory.Calls
import JobLedger.Proofs.Memory.InPlace
import JobLedger.Proofs.Recording

/-!
# Every row under its own key

A cabinet keeps the key of a row apart from the row, so that a row could stand under any key. No run
comes to that. Whatever is done to a cabinet that was empty, its entries are the rows of a ledger in
memory to which the same was done, each under the key that it holds, and every operation is answered
as on that ledger.
-/

namespace JobLedger

open JobLedger.Action

/-! ## Entries of a ledger in memory -/

namespace Cabinet

open Memory (SortedIds)

/-- Entries that are arranged by numbers came in the order of their numbers, none of them beyond the
last one that was given out. -/
structure Numbers {ρ : Type} {entity : Entity} (key : ρ → Id entity) (last : Nat)
    (rows : List ρ) (entries : List (Id entity × ρ)) : Prop
    extends Arranged (keyed key rows) entries where
  sorted : SortedIds key rows
  le : ∀ r ∈ rows, (key r).number ≤ last

namespace Numbers

variable {ρ : Type} {entity : Entity} {key : ρ → Id entity} {last : Nat} {rows : List ρ}
  {entries : List (Id entity × ρ)} {id : Id entity}

/-- No row was given a number yet. -/
theorem nil : Numbers key 0 [] [] := ⟨⟨.refl _, .nil⟩, .nil, List.forall_mem_nil _⟩

/-- Rows stand in the order of their keys. -/
theorem rows_eq (h : Numbers key last rows entries) : entries.map Prod.snd = rows := by
  have hkeyed : entries = keyed key rows :=
    h.eq_of_increasing (List.pairwise_map.mpr h.sorted)
  rw [hkeyed, map_snd_keyed]

/-- A row is changed under its number. -/
theorem change (h : Numbers key last rows entries) {f : ρ → ρ}
    (hf : ∀ r, key r = id → key (f r) = id) :
    Numbers key last (changeRow key id f rows)
      (entries.map fun entry => if entry.1 = id then (entry.1, f entry.2) else entry) where
  toArranged := h.changeRow hf
  sorted := h.sorted.changeRow fun r hr => by rw [hr, hf r hr]
  le := forall_changeRow key h.le fun r hr hle => by rwa [hf r hr, ← hr]

/-- Rows are taken away with their numbers. -/
theorem remove (h : Numbers key last rows entries) (goes : Id entity → Bool) :
    Numbers key last (rows.filter fun r => !goes (key r))
      (entries.filter fun entry => !goes entry.1) where
  toArranged := h.withdraw goes
  sorted := h.sorted.filter _
  le r hr := h.le r (List.mem_of_mem_filter hr)

/-- A row is added under the next number, which no row has. -/
theorem add (h : Numbers key last rows entries) {r : ρ} (hr : key r = id)
    (hid : id.number = last + 1) :
    Numbers key id.number (rows ++ [r]) (Entries.insert id r entries) where
  toArranged := by
    refine h.append hr (find?_key_eq_none_iff.mpr fun other hother heq => ?_)
    have hle := h.le other hother
    rw [heq] at hle
    omega
  sorted := h.sorted.append h.le (hr ▸ hid)
  le := hr ▸ Memory.le_append h.le (hr ▸ hid)

end Numbers

/-- The entries of a cabinet are the rows of a ledger in memory, each under the key that it holds,
and they are arranged by the keys. -/
structure Files (c : Cabinet) (m : Memory) : Prop where
  lastInstance : c.lastInstance = m.lastInstance
  lastExecution : c.lastExecution = m.lastExecution
  lastStep : c.lastStep = m.lastStep
  instances : Numbers JobInstance.id m.lastInstance m.instances c.instances
  executions : Numbers JobExecution.id m.lastExecution m.executions c.executions
  steps : Numbers StepExecution.id m.lastStep m.steps c.steps
  jobStatuses : Arranged (keyed JobStatus.instanceId m.jobStatuses) c.jobStatuses
  stepStatuses : Arranged (keyed StepStatus.statusId m.stepStatuses) c.stepStatuses
  checkpoints : Arranged m.checkpoints c.checkpoints

/-- Empty tables have no entries. -/
theorem files_empty : Files empty Memory.empty where
  lastInstance := rfl
  lastExecution := rfl
  lastStep := rfl
  instances := .nil
  executions := .nil
  steps := .nil
  jobStatuses := ⟨.refl _, .nil⟩
  stepStatuses := ⟨.refl _, .nil⟩
  checkpoints := ⟨.refl _, .nil⟩

end Cabinet

/-! ## Shelves that follow one another -/

/-- From states that correspond one shelf finds what the other one finds, and what is done to both
leads to states that correspond. Only rows that are a key's own stand under it. -/
structure Shelf.Follows {σ τ κ ρ : Type} (R : σ → τ → Prop) (own : κ → ρ → Prop)
    (a : Shelf σ κ ρ) (b : Shelf τ κ ρ) : Prop where
  find?_eq {s t} : R s t → ∀ k, a.find? k s = b.find? k t
  own_of_find? {s t k r} : R s t → b.find? k t = some r → own k r
  length_eq {s t} : R s t → (a.rows s).length = (b.rows t).length
  alter {s t k f} : R s t → (∀ r, own k r → own k (f r)) → R (a.alter k f s) (b.alter k f t)
  withdraw {s t} : R s t → ∀ goes, R (a.withdraw goes s) (b.withdraw goes t)

namespace Tables

open KeepsTables Cabinet

section Steps

variable {σ τ κ ρ α : Type} {R : σ → τ → Prop}

/-- What is found alike is looked up alike. -/
theorem simulates_look {f : σ → Except LedgerError α} {g : τ → Except LedgerError α}
    (h : ∀ s t, R s t → f s = g t) : Simulates R (look f) (look g) :=
  fun s t hst => ⟨h s t hst, hst⟩

/-- A row that was fetched was found. -/
theorem find?_of_fetch {shelf : Shelf σ κ ρ} {key : κ} {missing : LedgerError} {s : σ} {r : ρ}
    (h : (shelf.fetch key missing s).answer = .ok r) : shelf.find? key s = some r := by
  rw [Shelf.fetch, state_bind, ofOption_apply] at h
  cases hfind : shelf.find? key s with
  | none =>
    rw [hfind] at h
    cases h
  | some found =>
    rw [hfind] at h
    exact congrArg some (Except.ok.inj h)

/-- A row under a new number is added alike if counters that stand alike give out the number. -/
theorem simulates_addNumbered {entity : Entity} {counter : Counter σ} {counter' : Counter τ}
    {a : Shelf σ (Id entity) ρ} {b : Shelf τ (Id entity) ρ} {row : Id entity → ρ}
    {f : Id entity → α} (hlast : ∀ s t, R s t → counter.last s = counter'.last t)
    (hadd : ∀ s t id, R s t → id.number = counter'.last t + 1 →
      R (a.add id (row id) (counter.set id.number s))
        (b.add id (row id) (counter'.set id.number t))) :
    Simulates R
      (do
        let id ← counter.issue
        edit (a.add id (row id))
        answer (f id) : Action LedgerError σ α)
      (do
        let id ← counter'.issue
        edit (b.add id (row id))
        answer (f id)) := by
  intro s t hst
  cases hid : (Memory.nextId (counter'.last t) : Except LedgerError (Id entity)) with
  | error e =>
    have hid' : (Memory.nextId (counter.last s) : Except LedgerError (Id entity)) = .error e := by
      rw [hlast s t hst, hid]
    rw [bind_of_error (issue_error hid'), bind_of_error (issue_error hid)]
    exact ⟨rfl, hst⟩
  | ok id =>
    have hid' : Memory.nextId (counter.last s) = .ok id := by rw [hlast s t hst, hid]
    rw [bind_of_ok (issue_ok hid'), bind_of_ok (issue_ok hid)]
    exact ⟨rfl, hadd s t id hst (Memory.nextId_eq_ok_iff.mp hid)⟩

variable {own : κ → ρ → Prop} {a : Shelf σ κ ρ} {b : Shelf τ κ ρ}
  (hab : Shelf.Follows R own a b)

include hab

/-- The same row is fetched from both shelves. -/
theorem simulates_fetch (key : κ) (missing : LedgerError) :
    Simulates R (a.fetch key missing) (b.fetch key missing) := by
  intro s t hst
  rw [Shelf.fetch, Shelf.fetch, state_bind, state_bind, hab.find?_eq hst]
  exact Simulates.ofOption _ _ s t hst

/-- A row that keeps its key is changed on both shelves. -/
theorem simulates_alter {key : κ} {f : ρ → ρ} (hf : ∀ r, own key r → own key (f r)) :
    Simulates R (edit (a.alter key f) : Action LedgerError σ Unit) (edit (b.alter key f)) :=
  fun _ _ hst => ⟨rfl, hab.alter hst hf⟩

/-- The same rows are taken from both shelves. -/
theorem simulates_drain (goes : κ → Bool) : Simulates R (a.drain goes) (b.drain goes) := by
  intro s t hst
  have hnext := hab.withdraw hst goes
  refine ⟨?_, hnext⟩
  change Except.ok _ = Except.ok _
  rw [hab.length_eq hst, hab.length_eq hnext]

/-- What follows the check of a key goes alike if it does so behind a free key. -/
theorem alike_of_ensureFree {s : σ} {t : τ} {key : κ} {taken : LedgerError}
    {x : Unit → Action LedgerError σ α} {y : Unit → Action LedgerError τ α} (hst : R s t)
    (hxy : b.find? key t = none →
      (x () s).answer = (y () t).answer ∧ R (x () s).state (y () t).state) :
    ((a.ensureFree key taken >>= x) s).answer = ((b.ensureFree key taken >>= y) t).answer ∧
      R ((a.ensureFree key taken >>= x) s).state ((b.ensureFree key taken >>= y) t).state := by
  have hfind := hab.find?_eq hst key
  cases hrow : b.find? key t with
  | none =>
    rw [bind_of_ok (ensureFree_free (hfind.trans hrow) taken),
      bind_of_ok (ensureFree_free hrow taken)]
    exact hxy hrow
  | some r =>
    rw [bind_of_error (ensureFree_taken (hfind.trans hrow) taken),
      bind_of_error (ensureFree_taken hrow taken)]
    exact ⟨rfl, hst⟩

end Steps

/-! ## The shelves of a cabinet -/

/-- Instances stand under their own numbers. -/
theorem follows_instances :
    Shelf.Follows Files (fun id i => JobInstance.id i = id) instances instances where
  find?_eq h := h.instances.lookup_eq_find?
  own_of_find? _ h := key_of_find? JobInstance.id h
  length_eq h := h.instances.length_rows
  alter h hf := { h with instances := h.instances.change hf }
  withdraw h goes := { h with instances := h.instances.remove goes }

/-- Executions stand under their own numbers. -/
theorem follows_executions :
    Shelf.Follows Files (fun id e => JobExecution.id e = id) executions executions where
  find?_eq h := h.executions.lookup_eq_find?
  own_of_find? _ h := key_of_find? JobExecution.id h
  length_eq h := h.executions.length_rows
  alter h hf := { h with executions := h.executions.change hf }
  withdraw h goes := { h with executions := h.executions.remove goes }

/-- Step executions stand under their own numbers. -/
theorem follows_steps :
    Shelf.Follows Files (fun id s => StepExecution.id s = id) steps steps where
  find?_eq h := h.steps.lookup_eq_find?
  own_of_find? _ h := key_of_find? StepExecution.id h
  length_eq h := h.steps.length_rows
  alter h hf := { h with steps := h.steps.change hf }
  withdraw h goes := { h with steps := h.steps.remove goes }

/-- The status record of an instance stands under the number of the instance. -/
theorem follows_jobStatuses : Shelf.Follows Files
    (fun id status => JobStatus.instanceId status = id) jobStatuses jobStatuses where
  find?_eq h := h.jobStatuses.lookup_eq_find?
  own_of_find? _ h := key_of_find? JobStatus.instanceId h
  length_eq h := h.jobStatuses.length_rows
  alter h hf := { h with jobStatuses := h.jobStatuses.changeRow hf }
  withdraw h goes := { h with jobStatuses := h.jobStatuses.withdraw goes }

/-- The status record of a step stands under the number of its first step execution. -/
theorem follows_stepStatuses : Shelf.Follows Files
    (fun id status => StepStatus.statusId status = id) stepStatuses stepStatuses where
  find?_eq h := h.stepStatuses.lookup_eq_find?
  own_of_find? _ h := key_of_find? StepStatus.statusId h
  length_eq h := h.stepStatuses.length_rows
  alter h hf := { h with stepStatuses := h.stepStatuses.changeRow hf }
  withdraw h goes := { h with stepStatuses := h.stepStatuses.withdraw goes }

/-- A token does not hold its key, and may stand under any. -/
theorem follows_checkpoints : Shelf.Follows Files (fun _ _ => True) checkpoints checkpoints where
  find?_eq h := h.checkpoints.lookup_eq
  own_of_find? _ _ := trivial
  length_eq h := by
    change (List.map Prod.snd _).length = (List.map Prod.snd _).length
    rw [List.length_map, List.length_map, h.checkpoints.perm.length_eq]
  alter h _ := { h with checkpoints := h.checkpoints.map fun entry => by split <;> rfl }
  withdraw h goes := { h with checkpoints := h.checkpoints.filter _ }

/-! ## Lookups -/

section Lookups

variable {c : Cabinet} {m : Memory}

/-- An execution is there in the cabinet if it is there in the ledger. -/
theorem execution_filed (h : Files c m) (id : ExecutionId) : execution id c = execution id m := by
  rw [execution, execution, follows_executions.find?_eq h]

/-- An execution is looked up in the cabinet as in the ledger. -/
theorem simulates_execution (id : ExecutionId) :
    Simulates Files (look (execution id)) (look (execution id)) :=
  simulates_look fun _ _ h => execution_filed h id

/-- Instances stand in the order in which they came. -/
theorem rows_instances_filed (h : Files c m) : instances.rows c = instances.rows m :=
  h.instances.rows_eq

/-- Executions stand in the order in which they came. -/
theorem rows_executions_filed (h : Files c m) : executions.rows c = executions.rows m :=
  h.executions.rows_eq

/-- Step executions stand in the order in which they came. -/
theorem rows_steps_filed (h : Files c m) : steps.rows c = steps.rows m := h.steps.rows_eq

/-- The step executions of an instance are those that the ledger finds. -/
theorem stepsOfInstance_filed (h : Files c m) (id : InstanceId) :
    stepsOfInstance id c = stepsOfInstance id m := by
  rw [stepsOfInstance, stepsOfInstance, rows_steps_filed h]
  simp only [follows_executions.find?_eq h]

/-- What is looked up in the cabinet is looked up in the ledger. -/
theorem simulates_query {call : Call} (hquery : call.IsQuery) : AnswersAlike Files call := by
  cases call with
  | readiness => exact .answer ()
  | countInstances | pageInstances | externalInstances =>
    refine simulates_look fun c m h => ?_
    simp only [pageInstances, named, externalInstances, rows_instances_filed h]
  | executionsOf | runningExecutions | latestExecution =>
    refine simulates_look fun c m h => ?_
    simp only [executionsOf, runningExecutions, latestExecution, rows_executions_filed h]
  | stepsOf | recentSteps | partitionMetrics =>
    refine simulates_look fun c m h => ?_
    simp only [stepsOf, recentSteps, stepsOfInstance_filed h, partitionMetrics,
      rows_instances_filed h, rows_steps_filed h, follows_executions.find?_eq h]
  | findInstance | tagOfInstance | tagOfExecution =>
    refine simulates_look fun c m h => ?_
    simp only [tagOfInstance, tagOfExecution, execution_filed h, follows_instances.find?_eq h]
  | findExecution | instanceOf | parametersOf =>
    refine simulates_look fun c m h => ?_
    simp only [execution_filed h, follows_executions.find?_eq h]
  | findStep => exact simulates_look fun c m h => congrArg _ (follows_steps.find?_eq h _)
  | findJobStatus | jobStatusOf =>
    refine simulates_look fun c m h => ?_
    simp only [jobStatusOf, execution_filed h, follows_jobStatuses.find?_eq h]
  | findStepStatus =>
    refine simulates_look fun c m h => ?_
    simp only [findStepStatus, stepsOfInstance_filed h, follows_stepStatuses.find?_eq h]
  | findPair =>
    refine simulates_look fun c m h => ?_
    simp only [findPair, follows_checkpoints.find?_eq h]
  | _ => exact hquery.elim

end Lookups

/-! ## Changes -/

/-- An instance is added under the next number. -/
theorem simulates_addInstance (name appTag : String) (definition : Option String) :
    Simulates Files (addInstance name appTag definition) (addInstance name appTag definition) :=
  simulates_addNumbered (fun _ _ h => h.lastInstance) fun _ _ _ h hid =>
    { h with lastInstance := rfl, instances := h.instances.add rfl hid }

/-- An execution is added under the next number, once its instance is found. -/
theorem simulates_addExecution (id : InstanceId) (parameters : JobParameters)
    (status : BatchStatus) (time : Timestamp) :
    Simulates Files (addExecution id parameters status time)
      (addExecution id parameters status time) :=
  (simulates_fetch follows_instances _ _).bind fun _ =>
    simulates_addNumbered (fun _ _ h => h.lastExecution) fun _ _ _ h hid =>
      { h with lastExecution := rfl, executions := h.executions.add rfl hid }

/-- An execution keeps its key when it is changed. -/
theorem simulates_alterExecution (id : ExecutionId) {f : JobExecution → JobExecution}
    (hf : ∀ e, (f e).id = e.id) : Simulates Files (alterExecution id f) (alterExecution id f) :=
  (simulates_execution id).bind fun _ =>
    simulates_alter follows_executions fun e he => (hf e).trans he

/-- A step execution is added under the next number, once its execution is found. -/
theorem simulates_addStep (id : ExecutionId) (step : String) (metrics : StepMetrics)
    (time : Timestamp) :
    Simulates Files (addStep id step metrics time) (addStep id step metrics time) :=
  (simulates_ensureStepName step).bind fun _ =>
    (simulates_execution id).bind fun _ =>
      simulates_addNumbered (fun _ _ h => h.lastStep) fun _ _ _ h hid =>
        { h with lastStep := rfl, steps := h.steps.add rfl hid }

/-- A step execution keeps its key when it is updated. -/
theorem simulates_alterStep (id : StepId) (update : StepUpdate) :
    Simulates Files (alterStep id update) (alterStep id update) :=
  (simulates_fetch follows_steps _ _).bind fun s =>
    (simulates_execution s.executionId).bind fun _ =>
      (Simulates.ofExcept _).bind fun _ => (simulates_fetch follows_steps _ _).bind fun _ =>
        simulates_alter follows_steps fun _ hs => hs

/-- The six tables lose the rows that the ledger loses. -/
theorem simulates_removeTag (appTag : String) :
    Simulates Files (removeTag appTag) (removeTag appTag) := by
  intro c m h
  rw [removeTag, removeTag, state_bind, state_bind, rows_instances_filed h,
    rows_executions_filed h, rows_steps_filed h]
  refine Simulates.bind (simulates_drain follows_stepStatuses _) (fun _ => ?_) c m h
  exact (simulates_drain follows_steps _).bind fun _ =>
    (simulates_drain follows_jobStatuses _).bind fun _ =>
      (simulates_drain follows_checkpoints _).bind fun _ =>
        (simulates_drain follows_executions _).bind fun _ =>
          (simulates_drain follows_instances _).bind fun _ => .answer _

/-- The status record of an instance is put in order under the key of the instance. -/
theorem simulates_addJobStatus (id : InstanceId) :
    Simulates Files (addJobStatus id) (addJobStatus id) :=
  (simulates_fetch follows_instances _ _).bind fun _ _ _ h =>
    alike_of_ensureFree follows_jobStatuses h fun hfree =>
      ⟨rfl, { h with jobStatuses := h.jobStatuses.append rfl hfree }⟩

/-- A status record is replaced under the key that it holds. -/
theorem simulates_replaceJobStatus (status : JobStatus) :
    Simulates Files (replaceJobStatus status) (replaceJobStatus status) :=
  (simulates_fetch follows_jobStatuses _ _).bind fun _ =>
    simulates_alter follows_jobStatuses fun _ _ => rfl

/-- The status record of a step is put in order under the key of its step execution. -/
theorem simulates_addStepStatus (id : StepId) :
    Simulates Files (addStepStatus id) (addStepStatus id) :=
  (simulates_fetch follows_steps _ _).bind fun _ _ _ h =>
    alike_of_ensureFree follows_stepStatuses h fun hfree =>
      ⟨rfl, { h with stepStatuses := h.stepStatuses.append rfl hfree }⟩

/-- The status record of a step is replaced under the key that it holds. -/
theorem simulates_replaceStepStatus (status : StepStatus) :
    Simulates Files (replaceStepStatus status) (replaceStepStatus status) :=
  (simulates_fetch follows_stepStatuses _ _).bind fun _ =>
    simulates_alter follows_stepStatuses fun _ _ => rfl

/-- The record that counts one more start is the one found under the key. -/
theorem simulates_countStart (id : StepId) : Simulates Files (countStart id) (countStart id) := by
  refine (simulates_fetch follows_stepStatuses _ _).bind_of
    (A := fun status => status.statusId = id) (fun c m status h hanswer => ?_) fun status hid => ?_
  · exact follows_stepStatuses.own_of_find? h (find?_of_fetch hanswer)
  · refine (Simulates.ofExcept _).bind fun count => Simulates.bind ?_ fun _ => .answer _
    exact simulates_alter follows_stepStatuses fun _ _ => hid

/-- Both rows of a pair are put in order. -/
theorem simulates_addPair (id : InstanceId) (step : String) :
    Simulates Files (addPair id step) (addPair id step) :=
  (simulates_ensureStepName step).bind fun _ _ _ h =>
    alike_of_ensureFree follows_checkpoints h fun hreader =>
      alike_of_ensureFree follows_checkpoints h fun hwriter => by
        obtain ⟨hfirst, hothers⟩ := Memory.findsAdded_checkpoints _ none _ hreader
        have hadded := h.checkpoints.insert hreader none
        have hstill := (hothers _ (CheckpointKey.reader_ne_writer id step).symm).trans hwriter
        exact ⟨rfl, { h with checkpoints := hadded.insert hstill none }⟩

/-- Both rows of a pair are replaced under their keys. -/
theorem simulates_replacePair (id : InstanceId) (step : String) (pair : CheckpointPair) :
    Simulates Files (replacePair id step pair) (replacePair id step pair) :=
  (simulates_fetch follows_checkpoints _ _).bind fun _ =>
    (simulates_fetch follows_checkpoints _ _).bind fun _ =>
      (simulates_alter follows_checkpoints fun _ _ => trivial).bind fun _ =>
        simulates_alter follows_checkpoints fun _ _ => trivial

/-- A call answers on a cabinet as on the ledger whose rows it files, and files what comes of it. -/
theorem simulates_perform (call : Call) : AnswersAlike Files call := by
  cases call with
  | createInstance name appTag definition => exact simulates_addInstance name appTag definition
  | createPartition name appTag => exact simulates_addInstance name.encode appTag none
  | createExecution id parameters status time =>
    exact simulates_addExecution id parameters status time
  | markStarted | setExecutionStatus | finalizeExecution =>
    exact simulates_alterExecution _ fun _ => rfl
  | createStep id step metrics time => exact simulates_addStep id step metrics time
  | updateStep id update => exact simulates_alterStep id update
  | purge appTag => exact simulates_removeTag appTag
  | createJobStatus id => exact simulates_addJobStatus id
  | updateJobStatus status => exact simulates_replaceJobStatus status
  | createStepStatus id => exact simulates_addStepStatus id
  | updateStepStatus status => exact simulates_replaceStepStatus status
  | incrementStartCount id => exact simulates_countStart id
  | createPair id step => exact simulates_addPair id step
  | updatePair id step pair => exact simulates_replacePair id step pair
  | _ => exact simulates_query trivial

end Tables

/-! ## Runs -/

namespace Cabinet

/-- What a ledger in memory has seen, a cabinet that has seen the same has filed. -/
theorem files_run {c : Cabinet} {m : Memory} (h : Files c m) (operations : List Operation) :
    Files (Operation.run c operations) (Operation.run m operations) := by
  induction operations generalizing c m with
  | nil => exact h
  | cons operation rest ih =>
    rw [Operation.run_cons, Operation.run_cons]
    exact ih (Operation.simulates_perform (fun call _ => Tables.simulates_perform call) c m h).2

/-- Every row stands under the key that it holds. -/
structure OwnKeys (c : Cabinet) : Prop where
  instances : ∀ entry ∈ c.instances, entry.2.id = entry.1
  executions : ∀ entry ∈ c.executions, entry.2.id = entry.1
  steps : ∀ entry ∈ c.steps, entry.2.id = entry.1
  jobStatuses : ∀ entry ∈ c.jobStatuses, entry.2.instanceId = entry.1
  stepStatuses : ∀ entry ∈ c.stepStatuses, entry.2.statusId = entry.1

/-- Rows of a ledger in memory are filed under their own keys. -/
theorem Files.ownKeys {c : Cabinet} {m : Memory} (h : Files c m) : OwnKeys c where
  instances _ := h.instances.key_eq
  executions _ := h.executions.key_eq
  steps _ := h.steps.key_eq
  jobStatuses _ := h.jobStatuses.key_eq
  stepStatuses _ := h.stepStatuses.key_eq

/-- Whatever operations a cabinet has seen, it files the rows of a ledger in memory that has seen
them, every row stands under the key that it holds, and the next operation is answered alike. -/
theorem files_reached (operations : List Operation) :
    let c := Operation.run empty operations
    let m := Operation.run Memory.empty operations
    Files c m ∧ OwnKeys c ∧
      ∀ operation : Operation, (operation.perform c).answer = (operation.perform m).answer := by
  have hfiles := files_run files_empty operations
  refine ⟨hfiles, hfiles.ownKeys, fun operation => ?_⟩
  exact (Operation.simulates_perform (fun call _ => Tables.simulates_perform call) _ _ hfiles).1

end Cabinet

end JobLedger
