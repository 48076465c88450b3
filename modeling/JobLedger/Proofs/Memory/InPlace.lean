import JobLedger.Proofs.Action
import JobLedger.Proofs.Keyed
import JobLedger.Proofs.Memory.Whole

/-!
# Calls in place

The steps of every call on a ledger in memory, taken one after the other, come to what the call does
as a whole. Nothing puts back what a step has written, so that this rests on their order: a step that
may fail never stands behind one that writes.
-/

namespace JobLedger

namespace Tables

open JobLedger.Action KeepsTables

/-! ## Steps -/

section Steps

variable {σ κ ρ : Type} {s : σ}

/-- A counter that has a next number is at it when the number was given out. -/
theorem issue_ok {entity : Entity} {counter : Counter σ} {id : Id entity}
    (h : Memory.nextId (counter.last s) = .ok id) :
    counter.issue s = ⟨.ok id, counter.set id.number s, []⟩ := by
  rw [Counter.issue, state_bind, h]
  rfl

/-- A counter that has come to its end stays as it is. -/
theorem issue_error {entity : Entity} {counter : Counter σ} {e : LedgerError}
    (h : (Memory.nextId (counter.last s) : Except LedgerError (Id entity)) = .error e) :
    (counter.issue s : Outcome LedgerError σ (Id entity)) = ⟨.error e, s, []⟩ := by
  rw [Counter.issue, state_bind, h]
  rfl

variable {shelf : Shelf σ κ ρ} {key : κ}

/-- A row that is there is fetched. -/
theorem fetch_some {r : ρ} (h : shelf.find? key s = some r) (missing : LedgerError) :
    shelf.fetch key missing s = ⟨.ok r, s, []⟩ := by
  rw [Shelf.fetch, state_bind, h]
  rfl

/-- A row that is missing is an error. -/
theorem fetch_none (h : shelf.find? key s = none) (missing : LedgerError) :
    shelf.fetch key missing s = ⟨.error missing, s, []⟩ := by
  rw [Shelf.fetch, state_bind, h]
  rfl

/-- A free key is in order. -/
theorem ensureFree_free (h : shelf.find? key s = none) (taken : LedgerError) :
    shelf.ensureFree key taken s = ⟨.ok (), s, []⟩ := by
  rw [Shelf.ensureFree, state_bind, h]
  rfl

/-- A key that is taken is an error. -/
theorem ensureFree_taken {r : ρ} (h : shelf.find? key s = some r) (taken : LedgerError) :
    shelf.ensureFree key taken s = ⟨.error taken, s, []⟩ := by
  rw [Shelf.ensureFree, state_bind, h]
  rfl

/-- Behind the rows that were taken away, their number is known. -/
theorem drain_bind {α : Type} (goes : κ → Bool) (f : Nat → Action LedgerError σ α) (s : σ) :
    (shelf.drain goes >>= f) s =
      f ((shelf.rows s).length - (shelf.rows (shelf.withdraw goes s)).length)
        (shelf.withdraw goes s) := rfl

/-! ## Steps of a whole

A call comes to a change as a whole if the change fails with the error with which one of its steps
fails, and if behind a step that does not fail the rest comes to the change.
-/

variable {α : Type} {g : σ → Except LedgerError (α × σ)}

/-- A call that gives out a number first comes to a change. -/
theorem issue_bind_eq_change {entity : Entity} {counter : Counter σ}
    {f : Id entity → Action LedgerError σ α}
    (herror : ∀ e, (Memory.nextId (counter.last s) : Except LedgerError (Id entity)) = .error e →
      g s = .error e)
    (hok : ∀ id, Memory.nextId (counter.last s) = .ok id →
      f id (counter.set id.number s) = change g s) :
    (counter.issue >>= f) s = change g s := by
  cases hid : (Memory.nextId (counter.last s) : Except LedgerError (Id entity)) with
  | error e => rw [bind_of_error (issue_error hid), change_error (herror e hid)]
  | ok id => rw [bind_of_ok (issue_ok hid), hok id hid]

/-- A call that fetches a row first comes to a change. -/
theorem fetch_bind_eq_change {missing : LedgerError} {f : ρ → Action LedgerError σ α}
    (hmissing : shelf.find? key s = none → g s = .error missing)
    (hfound : ∀ r, shelf.find? key s = some r → f r s = change g s) :
    (shelf.fetch key missing >>= f) s = change g s := by
  cases hrow : shelf.find? key s with
  | none => rw [bind_of_error (fetch_none hrow missing), change_error (hmissing hrow)]
  | some r => rw [bind_of_ok (fetch_some hrow missing), hfound r hrow]

/-- A call that makes sure of a free key first comes to a change. -/
theorem ensureFree_bind_eq_change {taken : LedgerError} {f : Unit → Action LedgerError σ α}
    (htaken : ∀ r, shelf.find? key s = some r → g s = .error taken)
    (hfree : shelf.find? key s = none → f () s = change g s) :
    (shelf.ensureFree key taken >>= f) s = change g s := by
  cases hrow : shelf.find? key s with
  | none => rw [bind_of_ok (ensureFree_free hrow taken), hfree hrow]
  | some r => rw [bind_of_error (ensureFree_taken hrow taken), change_error (htaken r hrow)]

/-- A call that looks something up first comes to a change. -/
theorem look_bind_eq_change {β : Type} {h : σ → Except LedgerError β}
    {f : β → Action LedgerError σ α} (herror : ∀ e, h s = .error e → g s = .error e)
    (hok : ∀ b, h s = .ok b → f b s = change g s) : (look h >>= f) s = change g s := by
  cases hlook : h s with
  | error e =>
    have hfails : look h s = ⟨.error e, s, []⟩ := by rw [look_apply, hlook]
    rw [bind_of_error hfails, change_error (herror e hlook)]
  | ok b =>
    have hanswers : look h s = ⟨.ok b, s, []⟩ := by rw [look_apply, hlook]
    rw [bind_of_ok hanswers, hok b hlook]

end Steps

/-! ## Calls in place -/

/-- An instance is added in two steps, the counter first. -/
theorem addInstance_eq (name appTag : String) (definition : Option String) (m : Memory) :
    addInstance name appTag definition m =
      change (Memory.createInstance name appTag definition) m := by
  refine issue_bind_eq_change (fun e he => ?_) fun id hid => ?_
  · change Memory.nextId m.lastInstance = .error e at he
    rw [Memory.createInstance, he]
    rfl
  · change Memory.nextId m.lastInstance = .ok id at hid
    rw [edit_bind, change_ok]
    · rfl
    · rw [Memory.createInstance, hid]
      rfl

/-- An execution is added once its instance is found, and the counter goes first. -/
theorem addExecution_eq (id : InstanceId) (parameters : JobParameters) (status : BatchStatus)
    (time : Timestamp) (m : Memory) :
    addExecution id parameters status time m =
      change (Memory.createExecution id parameters status time) m := by
  refine fetch_bind_eq_change (fun (hi : m.instance? id = none) => ?_)
    fun i (hi : m.instance? id = some i) => ?_
  · rw [Memory.createExecution, hi]
  · refine issue_bind_eq_change (fun e he => ?_) fun execution hid => ?_
    · change Memory.nextId m.lastExecution = .error e at he
      rw [Memory.createExecution, hi, he]
      rfl
    · change Memory.nextId m.lastExecution = .ok execution at hid
      rw [edit_bind, change_ok]
      · rfl
      · rw [Memory.createExecution, hi, hid]
        rfl

/-- An execution that is there is changed in one step. -/
theorem alterExecution_eq (id : ExecutionId) (f : JobExecution → JobExecution) (m : Memory) :
    alterExecution id f m = change (Memory.changeExecution id f) m := by
  refine look_bind_eq_change (fun e (he : m.execution id = .error e) => ?_)
    fun e (he : m.execution id = .ok e) => ?_
  · rw [Memory.changeExecution, he]
    rfl
  · rw [change_ok]
    · rfl
    · rw [Memory.changeExecution, he]
      rfl

/-- A step execution is added once its execution is found, and the counter goes first. -/
theorem addStep_eq (id : ExecutionId) (step : String) (metrics : StepMetrics) (time : Timestamp)
    (m : Memory) :
    addStep id step metrics time m =
      (ensureStepName step >>= fun _ => change (Memory.createStep id step metrics time)) m := by
  rw [addStep]
  refine congrFun (congrArg (ensureStepName step >>= ·) (funext fun _ => funext fun m => ?_)) m
  refine look_bind_eq_change (fun e (he : m.execution id = .error e) => ?_)
    fun owner (howner : m.execution id = .ok owner) => ?_
  · rw [Memory.createStep, he]
    rfl
  · refine issue_bind_eq_change (fun e he => ?_) fun stepId hid => ?_
    · change Memory.nextId m.lastStep = .error e at he
      rw [Memory.createStep, howner, he]
      rfl
    · change Memory.nextId m.lastStep = .ok stepId at hid
      rw [edit_bind, change_ok]
      · rfl
      · rw [Memory.createStep, howner, hid]
        rfl

/-- A step execution is changed once its owner has been looked at. That it is looked up twice makes
no difference. -/
theorem alterStep_eq (id : StepId) (update : StepUpdate) (m : Memory) :
    alterStep id update m = change (Memory.updateStep id update) m := by
  refine fetch_bind_eq_change (fun (hs : m.step? id = none) => ?_)
    fun s (hs : m.step? id = some s) => ?_
  · rw [Memory.updateStep, hs]
  · have hid : s.id = id := key_of_find? StepExecution.id hs
    refine look_bind_eq_change (fun e (he : m.execution s.executionId = .error e) => ?_)
      fun owner (howner : m.execution s.executionId = .ok owner) => ?_
    · rw [Memory.updateStep, hs]
      dsimp only
      rw [he]
      rfl
    · by_cases hended : owner.status.isTerminal
      · have hrefused : checkStepUpdate s owner =
            .error ⟨.invalidTransition, .frozen id owner.id.number owner.status⟩ := by
          rw [checkStepUpdate, if_pos hended, hid]
        rw [hrefused, ofExcept_error_bind, change_error]
        · rfl
        · rw [Memory.updateStep, hs]
          dsimp only
          rw [howner, ok_bind, if_pos hended]
      · have hpassed : checkStepUpdate s owner = .ok () := by
          rw [checkStepUpdate, if_neg hended]
        have hagain : steps.fetch id ⟨.notFound, .stepExecution id⟩ m = ⟨.ok s, m, []⟩ :=
          fetch_some hs _
        rw [hpassed, ofExcept_ok_bind, bind_of_ok hagain, change_ok]
        · rfl
        · rw [Memory.updateStep, hs]
          dsimp only
          rw [howner, ok_bind, if_neg hended]
          rfl

/-- Every key has one token. -/
theorem length_rows_checkpoints (m : Memory) :
    (checkpoints.rows m).length = m.checkpoints.length := List.length_map _

/-- The tables are purged one after the other, and none of the six steps looks at what another one
has taken away. -/
theorem removeTag_eq (appTag : String) (m : Memory) :
    removeTag appTag m = change (fun m => .ok (m.purge appTag)) m := by
  rw [removeTag, state_bind]
  simp only [drain_bind, length_rows_checkpoints]
  rfl

/-- The status record of an instance is added once the instance is found, and no record. -/
theorem addJobStatus_eq (id : InstanceId) (m : Memory) :
    addJobStatus id m = change (Memory.createJobStatus id) m := by
  refine fetch_bind_eq_change (fun (hi : m.instance? id = none) => ?_)
    fun i (hi : m.instance? id = some i) => ?_
  · rw [Memory.createJobStatus, hi]
    rfl
  · refine ensureFree_bind_eq_change (fun old (hold : m.jobStatus? id = some old) => ?_)
      fun (hfree : m.jobStatus? id = none) => ?_
    · rw [Memory.createJobStatus, hi, hold]
      rfl
    · rw [edit_bind, change_ok]
      · rfl
      · rw [Memory.createJobStatus, hi, hfree]
        rfl

/-- The status record of an instance is replaced if it is there. -/
theorem replaceJobStatus_eq (status : JobStatus) (m : Memory) :
    replaceJobStatus status m = change (Memory.updateJobStatus status) m := by
  refine fetch_bind_eq_change (fun (hold : m.jobStatus? status.instanceId = none) => ?_)
    fun old (hold : m.jobStatus? status.instanceId = some old) => ?_
  · rw [Memory.updateJobStatus, hold]
    rfl
  · rw [change_ok]
    · rfl
    · rw [Memory.updateJobStatus, hold]
      rfl

/-- The status record under a step execution is added once the step execution is found, and no
record. -/
theorem addStepStatus_eq (id : StepId) (m : Memory) :
    addStepStatus id m = change (Memory.createStepStatus id) m := by
  refine fetch_bind_eq_change (fun (hs : m.step? id = none) => ?_)
    fun s (hs : m.step? id = some s) => ?_
  · rw [Memory.createStepStatus, hs]
    rfl
  · refine ensureFree_bind_eq_change (fun old (hold : m.stepStatus? id = some old) => ?_)
      fun (hfree : m.stepStatus? id = none) => ?_
    · rw [Memory.createStepStatus, hs, hold]
      rfl
    · rw [edit_bind, change_ok]
      · rfl
      · rw [Memory.createStepStatus, hs, hfree]
        rfl

/-- The status record of a step is replaced if it is there. -/
theorem replaceStepStatus_eq (status : StepStatus) (m : Memory) :
    replaceStepStatus status m = change (Memory.updateStepStatus status) m := by
  refine fetch_bind_eq_change (fun (hold : m.stepStatus? status.statusId = none) => ?_)
    fun old (hold : m.stepStatus? status.statusId = some old) => ?_
  · rw [Memory.updateStepStatus, hold]
    rfl
  · rw [change_ok]
    · rfl
    · rw [Memory.updateStepStatus, hold]
      rfl

/-- A start is counted once the record is found, and its counter has room. -/
theorem countStart_eq (id : StepId) (m : Memory) :
    countStart id m = change (Memory.incrementStartCount id) m := by
  refine fetch_bind_eq_change (fun (hold : m.stepStatus? id = none) => ?_)
    fun old (hold : m.stepStatus? id = some old) => ?_
  · rw [Memory.incrementStartCount, hold]
  · have hid : old.statusId = id := key_of_find? StepStatus.statusId hold
    by_cases hroom : old.startCount.toNat + 1 < UInt32.size
    · rw [if_pos hroom, ofExcept_ok_bind, edit_bind, change_ok]
      · rfl
      · rw [Memory.incrementStartCount, hold]
        dsimp only
        rw [if_pos hroom, Memory.setStepStatus]
        dsimp only
        rw [hid]
        rfl
    · rw [if_neg hroom, ofExcept_error_bind, change_error]
      · rfl
      · rw [Memory.incrementStartCount, hold]
        dsimp only
        rw [if_neg hroom]

/-- A pair is added row by row once both keys are found free. -/
theorem addPair_eq (id : InstanceId) (step : String) (m : Memory) :
    addPair id step m =
      (ensureStepName step >>= fun _ => change (Memory.createPair id step)) m := by
  let key := CheckpointKey.ofPair id step
  rw [addPair]
  refine congrFun (congrArg (ensureStepName step >>= ·) (funext fun _ => funext fun m => ?_)) m
  refine ensureFree_bind_eq_change (fun token (hreader : m.token? (key .reader) = some token) => ?_)
    fun (hreader : m.token? (key .reader) = none) => ?_
  · rw [Memory.createPair, hreader]
    rfl
  · refine ensureFree_bind_eq_change
      (fun token (hwriter : m.token? (key .writer) = some token) => ?_)
      fun (hwriter : m.token? (key .writer) = none) => ?_
    · rw [Memory.createPair, hreader, hwriter]
      rfl
    · rw [edit_bind, change_ok]
      · rfl
      · rw [Memory.createPair, hreader, hwriter]
        exact congrArg (fun rows => Except.ok ((), { m with checkpoints := rows }))
          (List.append_assoc m.checkpoints [_] [_]).symm

/-- A pair is replaced row by row once both rows are found. -/
theorem replacePair_eq (id : InstanceId) (step : String) (pair : CheckpointPair) (m : Memory) :
    replacePair id step pair m = change (Memory.updatePair id step pair) m := by
  let key := CheckpointKey.ofPair id step
  refine fetch_bind_eq_change (fun (hreader : m.token? (key .reader) = none) => ?_)
    fun reader (hreader : m.token? (key .reader) = some reader) => ?_
  · rw [Memory.updatePair, hreader]
    rfl
  · refine fetch_bind_eq_change (fun (hwriter : m.token? (key .writer) = none) => ?_)
      fun writer (hwriter : m.token? (key .writer) = some writer) => ?_
    · rw [Memory.updatePair, hreader, hwriter]
      rfl
    · rw [edit_bind, change_ok]
      · rfl
      · rw [Memory.updatePair, hreader, hwriter]
        rfl

end Tables

/-- Every call in place comes to what it does as a whole. -/
theorem Memory.perform_eq (call : Call) :
    (LedgerStore.perform call : Action LedgerError Memory call.Answer) = Memory.whole call := by
  funext m
  cases call with
  | createInstance name appTag definition => exact Tables.addInstance_eq name appTag definition m
  | createPartition name appTag => exact Tables.addInstance_eq name.encode appTag none m
  | createExecution id parameters status time =>
    exact Tables.addExecution_eq id parameters status time m
  | markStarted id time => exact Tables.alterExecution_eq id _ m
  | setExecutionStatus id status time => exact Tables.alterExecution_eq id _ m
  | finalizeExecution id status exitStatus time => exact Tables.alterExecution_eq id _ m
  | createStep id step metrics time => exact Tables.addStep_eq id step metrics time m
  | updateStep id update => exact Tables.alterStep_eq id update m
  | purge appTag => exact Tables.removeTag_eq appTag m
  | createJobStatus id => exact Tables.addJobStatus_eq id m
  | updateJobStatus status => exact Tables.replaceJobStatus_eq status m
  | createStepStatus id => exact Tables.addStepStatus_eq id m
  | updateStepStatus status => exact Tables.replaceStepStatus_eq status m
  | incrementStartCount id => exact Tables.countStart_eq id m
  | createPair id step => exact Tables.addPair_eq id step m
  | updatePair id step pair => exact Tables.replacePair_eq id step pair m
  | _ => rfl

end JobLedger
