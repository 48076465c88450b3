import JobLedger.Memory.Store
import JobLedger.Proofs.Atomic
import JobLedger.Proofs.Name.Checkpoint

/-!
# The ledger in memory fails in place

Whatever is in its tables, and under whatever keys, a ledger in memory is after a call that fails what
it was before, and a pair that was created is found. A call writes in place, and nothing takes back
what it has written: it fails in place because each of its steps that may fail stands in front of the
first one that writes.
-/

namespace JobLedger

open JobLedger.Action

namespace Tables

open KeepsTables

variable {σ δ κ ρ : Type} {kept : σ → δ}

/-! ## Steps -/

/-- Fetching a row changes nothing, whether it is there or not. -/
theorem spares_fetch (shelf : Shelf σ κ ρ) (key : κ) (missing : LedgerError) :
    Spares kept (shelf.fetch key missing) :=
  fun _ => Keeps.state.bind fun _ => Keeps.ofOption _ _

/-- Checking that a key is free changes nothing. -/
theorem spares_ensureFree (shelf : Shelf σ κ ρ) (key : κ) (taken : LedgerError) :
    Spares kept (shelf.ensureFree key taken) := by
  refine fun _ => Keeps.state.bind fun s => ?_
  split
  · exact Keeps.fail _
  · exact Keeps.answer _

/-- A counter that gives out no number stays as it is. -/
theorem atomic_issue {entity : Entity} (counter : Counter σ) :
    Atomic kept (counter.issue : Action LedgerError σ (Id entity)) :=
  .bind_of_spares (fun _ => Keeps.state) fun _ => .bind_of_spares (fun _ => Keeps.ofExcept _) fun _ =>
    .of_answers ((Answers.edit _).bind fun _ => .answer _)

/-- Taking rows away never fails. -/
theorem answers_drain (shelf : Shelf σ κ ρ) (goes : κ → Bool) : Answers (shelf.drain goes) :=
  Answers.state.bind fun _ => (Answers.edit _).bind fun _ => Answers.state.bind fun _ => .answer _

/-! ## Calls -/

variable [KeepsTables σ]

/-- Nothing can fail behind the counter when an instance is added. -/
theorem atomic_addInstance (name appTag : String) (definition : Option String) :
    Atomic kept (addInstance name appTag definition) :=
  .bind_of_answers (atomic_issue _) fun _ => (Answers.edit _).bind fun _ => .answer _

/-- The counter moves behind the search for the instance. -/
theorem atomic_addExecution (id : InstanceId) (parameters : JobParameters) (status : BatchStatus)
    (time : Timestamp) : Atomic kept (addExecution id parameters status time) :=
  .bind_of_spares (spares_fetch _ _ _) fun _ =>
    .bind_of_answers (atomic_issue _) fun _ => (Answers.edit _).bind fun _ => .answer _

/-- An execution is looked up before it is written. -/
theorem atomic_alterExecution (id : ExecutionId) (f : JobExecution → JobExecution) :
    Atomic kept (alterExecution id f) :=
  .bind_of_spares (fun _ => Keeps.look _) fun _ => .of_answers (.edit _)

/-- The counter moves behind the check of the name and the search for the execution. -/
theorem atomic_addStep (id : ExecutionId) (step : String) (metrics : StepMetrics)
    (time : Timestamp) : Atomic kept (addStep id step metrics time) :=
  .bind_of_spares (fun _ => keeps_ensureStepName step) fun _ =>
    .bind_of_spares (fun _ => Keeps.look _) fun _ =>
      .bind_of_answers (atomic_issue _) fun _ => (Answers.edit _).bind fun _ => .answer _

/-- A step execution is looked up once more behind the check of its owner, and written then. -/
theorem atomic_alterStep (id : StepId) (update : StepUpdate) :
    Atomic kept (alterStep id update) :=
  .bind_of_spares (spares_fetch _ _ _) fun _ => .bind_of_spares (fun _ => Keeps.look _) fun _ =>
    .bind_of_spares (fun _ => Keeps.ofExcept _) fun _ =>
      .bind_of_spares (spares_fetch _ _ _) fun _ => .of_answers (.edit _)

/-- Nothing can fail while the tables are purged. -/
theorem answers_removeTag (appTag : String) :
    Answers (removeTag appTag : Action LedgerError σ PurgeSummary) :=
  Answers.state.bind fun _ => (answers_drain _ _).bind fun _ => (answers_drain _ _).bind fun _ =>
    (answers_drain _ _).bind fun _ => (answers_drain _ _).bind fun _ =>
      (answers_drain _ _).bind fun _ => (answers_drain _ _).bind fun _ => .answer _

/-- Both checks stand in front of the new status record. -/
theorem atomic_addJobStatus (id : InstanceId) : Atomic kept (addJobStatus id) :=
  .bind_of_spares (spares_fetch _ _ _) fun _ => .bind_of_spares (spares_ensureFree _ _ _) fun _ =>
    .of_answers ((Answers.edit _).bind fun _ => .answer _)

/-- A status record is looked up before it is written. -/
theorem atomic_replaceJobStatus (status : JobStatus) : Atomic kept (replaceJobStatus status) :=
  .bind_of_spares (spares_fetch _ _ _) fun _ => .of_answers (.edit _)

/-- Both checks stand in front of the new status record of a step. -/
theorem atomic_addStepStatus (id : StepId) : Atomic kept (addStepStatus id) :=
  .bind_of_spares (spares_fetch _ _ _) fun _ => .bind_of_spares (spares_ensureFree _ _ _) fun _ =>
    .of_answers ((Answers.edit _).bind fun _ => .answer _)

/-- The status record of a step is looked up before it is written. -/
theorem atomic_replaceStepStatus (status : StepStatus) :
    Atomic kept (replaceStepStatus status) :=
  .bind_of_spares (spares_fetch _ _ _) fun _ => .of_answers (.edit _)

/-- A start count without room is found out before it is written. -/
theorem atomic_countStart (id : StepId) : Atomic kept (countStart id) :=
  .bind_of_spares (spares_fetch _ _ _) fun _ => .bind_of_spares (fun _ => Keeps.ofExcept _) fun _ =>
    .of_answers ((Answers.edit _).bind fun _ => .answer _)

/-- Both keys of a pair are found free before the first row is written. -/
theorem atomic_addPair (id : InstanceId) (step : String) : Atomic kept (addPair id step) :=
  .bind_of_spares (fun _ => keeps_ensureStepName step) fun _ =>
    .bind_of_spares (spares_ensureFree _ _ _) fun _ =>
      .bind_of_spares (spares_ensureFree _ _ _) fun _ =>
        .of_answers ((Answers.edit _).bind fun _ => .edit _)

/-- Both rows of a pair are found before the first one is written. -/
theorem atomic_replacePair (id : InstanceId) (step : String) (pair : CheckpointPair) :
    Atomic kept (replacePair id step pair) :=
  .bind_of_spares (spares_fetch _ _ _) fun _ => .bind_of_spares (spares_fetch _ _ _) fun _ =>
    .of_answers ((Answers.edit _).bind fun _ => .edit _)

/-- A call that looks something up leaves the tables. -/
theorem spares_perform {call : Call} (hquery : call.IsQuery) :
    Spares kept (perform call : Action LedgerError σ call.Answer) := by
  cases call with
  | readiness => exact fun _ => Keeps.answer ()
  | _ => first | exact fun _ => Keeps.look _ | exact hquery.elim

/-- A call that fails leaves the tables. -/
theorem atomic_perform (call : Call) :
    Atomic kept (perform call : Action LedgerError σ call.Answer) := by
  cases call with
  | createInstance name appTag definition => exact atomic_addInstance name appTag definition
  | createPartition name appTag => exact atomic_addInstance name.encode appTag none
  | createExecution id parameters status time =>
    exact atomic_addExecution id parameters status time
  | markStarted | setExecutionStatus | finalizeExecution => exact atomic_alterExecution _ _
  | createStep id step metrics time => exact atomic_addStep id step metrics time
  | updateStep id update => exact atomic_alterStep id update
  | purge appTag => exact .of_answers (answers_removeTag appTag)
  | createJobStatus id => exact atomic_addJobStatus id
  | updateJobStatus status => exact atomic_replaceJobStatus status
  | createStepStatus id => exact atomic_addStepStatus id
  | updateStepStatus status => exact atomic_replaceStepStatus status
  | incrementStartCount id => exact atomic_countStart id
  | createPair id step => exact atomic_addPair id step
  | updatePair id step pair => exact atomic_replacePair id step pair
  | _ => exact .of_spares (spares_perform trivial)

/-! ## Pairs that were created -/

/-- A row that is added under a free key is found under it, and every other key finds what it found
before. -/
def FindsAdded (shelf : Shelf σ κ ρ) : Prop :=
  ∀ key row s, shelf.find? key s = none →
    shelf.find? key (shelf.add key row s) = some row ∧
      ∀ other, other ≠ key → shelf.find? other (shelf.add key row s) = shelf.find? other s

omit [KeepsTables σ] in
/-- A key that is found free is free, and nothing else has happened. -/
theorem ensureFree_eq_ok {shelf : Shelf σ κ ρ} {key : κ} {taken : LedgerError} {s : σ}
    (h : (shelf.ensureFree key taken s).answer = .ok ()) :
    shelf.find? key s = none ∧ (shelf.ensureFree key taken s).state = s := by
  have hspares : Spares (fun s : σ => s) (shelf.ensureFree key taken) := spares_ensureFree _ _ _
  refine ⟨?_, hspares.apply s⟩
  cases hrow : shelf.find? key s with
  | none => rfl
  | some row =>
    rw [Shelf.ensureFree, state_bind, hrow] at h
    exact nomatch h

/-- A pair that was added is found, without tokens. -/
theorem findPair_of_addPair (hshelf : FindsAdded (checkpoints : Shelf σ String _))
    {id : InstanceId} {step : String} {s : σ} (h : (addPair id step s).answer = .ok ()) :
    findPair id step (addPair id step s).state = .ok (some ⟨none, none⟩) := by
  have hne : (CheckpointKey.ofPair id step .reader).encode ≠
      (CheckpointKey.ofPair id step .writer).encode := CheckpointKey.reader_ne_writer id step
  rw [addPair] at h ⊢
  obtain ⟨_, hname, h, hstate⟩ := bind_eq_ok h
  have hsame : ((ensureStepName step : Action LedgerError σ Unit) s).state = s :=
    (keeps_ensureStepName step : Keeps (fun t => t = s) _) s rfl
  rw [hstate]
  rw [hsame] at h ⊢
  obtain ⟨_, hfree, h, hstate⟩ := bind_eq_ok h
  obtain ⟨hreader, hsame⟩ := ensureFree_eq_ok hfree
  rw [hstate]
  rw [hsame] at h ⊢
  obtain ⟨_, hfree, -, hstate⟩ := bind_eq_ok h
  obtain ⟨hwriter, hsame⟩ := ensureFree_eq_ok hfree
  rw [hstate, hsame, edit_bind]
  obtain ⟨hfirst, hothers⟩ := hshelf _ none s hreader
  have hstill := (hothers _ hne.symm).trans hwriter
  obtain ⟨hsecond, hkept⟩ := hshelf _ none _ hstill
  have hfirst := (hkept _ hne).trans hfirst
  change findPair id step (checkpoints.add _ none (checkpoints.add _ none s)) = _
  simp only [findPair, hfirst, hsecond]

end Tables

/-- The calls on a ledger in memory fail in place. -/
theorem Memory.atomicStore : AtomicStore (id : Memory → Memory) :=
  ⟨Tables.atomic_perform, fun _ => Tables.spares_perform⟩

/-- The calls on tables under keys of their own fail in place. -/
theorem Cabinet.atomicStore : AtomicStore (id : Cabinet → Cabinet) :=
  ⟨Tables.atomic_perform, fun _ => Tables.spares_perform⟩

/-- A token is found behind those that were there before. -/
theorem Memory.findsAdded_checkpoints :
    Tables.FindsAdded (KeepsTables.checkpoints : Shelf Memory String _) := by
  intro key token m hfree
  have hfree : m.checkpoints.lookup key = none := hfree
  constructor
  · change (m.checkpoints ++ [(key, token)]).lookup key = some token
    rw [List.lookup_append, hfree]
    simp
  · intro other hne
    have hother : (other == key) = false := by simpa using hne
    change (m.checkpoints ++ [(key, token)]).lookup other = m.checkpoints.lookup other
    rw [List.lookup_append, List.lookup_cons, hother]
    simp

/-- A token is found under its key, wherever the key stands among the others. -/
theorem Cabinet.findsAdded_checkpoints :
    Tables.FindsAdded (KeepsTables.checkpoints : Shelf Cabinet String _) := by
  intro key token c _
  constructor
  · exact (Entries.lookup_insert key key token c.checkpoints).trans (if_pos rfl)
  · intro other hne
    exact (Entries.lookup_insert key other token c.checkpoints).trans (if_neg hne)

/-- A pair that was missing, and was created, is found. -/
theorem Memory.findsCreated (m : Memory) (id : InstanceId) (step : String) :
    FindsCreated id step m :=
  fun _ hcreated => ⟨_, Tables.findPair_of_addPair Memory.findsAdded_checkpoints hcreated⟩

/-- A pair that was missing, and was created, is found under its keys. -/
theorem Cabinet.findsCreated (c : Cabinet) (id : InstanceId) (step : String) :
    FindsCreated id step c :=
  fun _ hcreated => ⟨_, Tables.findPair_of_addPair Cabinet.findsAdded_checkpoints hcreated⟩

end JobLedger
