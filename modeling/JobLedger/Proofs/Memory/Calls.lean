import JobLedger.Proofs.Memory.Purge
import JobLedger.Proofs.Operation

/-!
# Calls keep a ledger well-formed

What each call of a ledger in memory does, as one equation where it always succeeds or as its two
outcomes, and that every call leaves a well-formed ledger well-formed.
-/

namespace JobLedger

open JobLedger.Action

namespace Memory

variable {m : Memory}

/-- The next identifier has the next number. -/
theorem nextId_eq_ok_iff {entity : Entity} {last : Nat} {id : Id entity} :
    nextId last = .ok id ↔ id.number = last + 1 := by
  rw [nextId, ← Id.ofNat?_eq_some_iff]
  cases (Id.ofNat? (last + 1) : Option (Id entity)) with
  | none => simp
  | some found => simp

/-- The number of the next identifier has to fit in 64 bits. -/
theorem nextId_eq_error {entity : Entity} {last : Nat} {e : LedgerError}
    (h : (nextId last : Except LedgerError (Id entity)) = .error e) :
    e = ⟨.storeUnavailable, .idsExhausted⟩ := by
  rw [nextId] at h
  cases hid : (Id.ofNat? (last + 1) : Option (Id entity)) with
  | none =>
    rw [hid] at h
    exact (Except.error.inj h).symm
  | some found =>
    rw [hid] at h
    exact nomatch h

/-- An execution is found, or it is missing. -/
theorem execution_eq (m : Memory) (id : ExecutionId) :
    m.execution id = match m.execution? id with
      | none => .error ⟨.noSuchExecution, .jobExecution id⟩
      | some e => .ok e := by
  rw [execution]
  cases m.execution? id with
  | none => rfl
  | some e => rfl

/-- A change leaves a well-formed ledger, or fails, but not since it found one half of a pair. -/
def Sound {α : Type} : Except LedgerError (α × Memory) → Prop
  | .ok (_, next) => WellFormed next
  | .error e => e.kind ≠ .decodeFailure

/-- An error of any other kind is sound. -/
theorem Sound.of_error {α : Type} {kind : LedgerError.Kind} {cause : Cause}
    (h : kind ≠ .decodeFailure) : Sound (.error ⟨kind, cause⟩ : Except LedgerError (α × Memory)) :=
  h

namespace WellFormed

variable (h : WellFormed m)

include h

/-- A new instance has the next number. -/
theorem createInstance (name appTag : String) (definition : Option String) :
    Sound (m.createInstance name appTag definition) := by
  cases hid : (nextId m.lastInstance : Except LedgerError InstanceId) with
  | error e =>
    simp only [Memory.createInstance, hid]
    rw [nextId_eq_error hid]
    exact .of_error (by simp)
  | ok id =>
    simp only [Memory.createInstance, hid]
    exact h.addInstance (i := ⟨id, name, appTag, definition⟩) (nextId_eq_ok_iff.mp hid)

/-- A new execution has the next number, and belongs to an instance that is there. -/
theorem createExecution (id : InstanceId) (parameters : JobParameters) (status : BatchStatus)
    (time : Timestamp) : Sound (m.createExecution id parameters status time) := by
  rw [Memory.createExecution]
  cases hi : m.instance? id with
  | none => exact .of_error (by simp)
  | some i =>
    have howner := h.instance?_eq_some_iff.mp hi
    cases hnext : (nextId m.lastExecution : Except LedgerError ExecutionId) with
    | error e =>
      rw [nextId_eq_error hnext]
      exact .of_error (by simp)
    | ok execution =>
      exact h.addExecution
        (e := ⟨execution, id, i.name, time, none, none, time, status, none, parameters⟩)
        (nextId_eq_ok_iff.mp hnext) ⟨i, howner.1, howner.2, rfl⟩

/-- An execution may change that keeps its number, its instance and its job name. -/
theorem changeExecution (id : ExecutionId) {f : JobExecution → JobExecution}
    (hid : ∀ e, (f e).id = e.id) (hinstance : ∀ e, (f e).instanceId = e.instanceId)
    (hname : ∀ e, (f e).jobName = e.jobName) : Sound (m.changeExecution id f) := by
  rw [Memory.changeExecution, execution_eq]
  cases m.execution? id with
  | none => exact .of_error (by simp)
  | some e => exact h.modifyExecution hid hinstance hname

/-- A new step execution has the next number, a step name, and an execution that is there. -/
theorem createStep (id : ExecutionId) {step : String} (hstep : stepNameFault? step = none)
    (metrics : StepMetrics) (time : Timestamp) : Sound (m.createStep id step metrics time) := by
  rw [Memory.createStep, execution_eq]
  cases he : m.execution? id with
  | none => exact .of_error (by simp)
  | some e =>
    cases hnext : (nextId m.lastStep : Except LedgerError StepId) with
    | error e =>
      rw [nextId_eq_error hnext]
      exact .of_error (by simp)
    | ok stepId =>
      exact h.addStep (s := ⟨stepId, id, step, .starting, none, metrics, time, none, none⟩)
        (nextId_eq_ok_iff.mp hnext) ⟨e, h.execution?_eq_some_iff.mp he⟩ hstep

/-- An update of a step execution keeps its number, its execution and its step name. -/
theorem updateStep (id : StepId) (update : StepUpdate) : Sound (m.updateStep id update) := by
  rw [Memory.updateStep]
  cases m.step? id with
  | none => exact .of_error (by simp)
  | some s =>
    simp only [execution_eq]
    cases m.execution? s.executionId with
    | none => exact .of_error (by simp)
    | some owner =>
      change Sound (if owner.status.isTerminal then _ else _)
      split
      · exact .of_error (by simp)
      · exact h.modifyStep (fun _ => rfl) (fun _ => rfl) fun _ => rfl

/-- What is left behind a purge belongs to instances that are left. -/
theorem purge (tag : String) : Sound (.ok (m.purge tag)) := by
  rw [h.purge_eq]
  exact h.remaining tag

/-- A new status record is the first one of its instance. -/
theorem createJobStatus (id : InstanceId) : Sound (m.createJobStatus id) := by
  rw [Memory.createJobStatus]
  cases hi : m.instance? id with
  | none => exact .of_error (by simp)
  | some i =>
    cases hstatus : m.jobStatus? id with
    | some status => exact .of_error (by simp)
    | none => exact h.addJobStatus hstatus ⟨i, h.instance?_eq_some_iff.mp hi⟩

/-- A status record takes the place of another one of the same instance. -/
theorem updateJobStatus (status : JobStatus) : Sound (m.updateJobStatus status) := by
  rw [Memory.updateJobStatus]
  split
  · exact .of_error (by simp)
  · exact h.setJobStatus status

/-- A new status record of a step is the first one under its step execution. -/
theorem createStepStatus (id : StepId) : Sound (m.createStepStatus id) := by
  rw [Memory.createStepStatus]
  cases hs : m.step? id with
  | none => exact .of_error (by simp)
  | some s =>
    cases hstatus : m.stepStatus? id with
    | some status => exact .of_error (by simp)
    | none => exact h.addStepStatus hstatus ⟨s, h.step?_eq_some_iff.mp hs⟩

/-- A status record of a step takes the place of another one under the same step execution. -/
theorem updateStepStatus (status : StepStatus) : Sound (m.updateStepStatus status) := by
  rw [Memory.updateStepStatus]
  split
  · exact .of_error (by simp)
  · exact h.setStepStatus status

/-- A counted start keeps the step execution that a status record belongs to. -/
theorem incrementStartCount (id : StepId) : Sound (m.incrementStartCount id) := by
  rw [Memory.incrementStartCount]
  cases m.stepStatus? id with
  | none => exact .of_error (by simp)
  | some status =>
    simp only
    split
    · exact h.setStepStatus _
    · exact .of_error (by simp)

/-- A new pair has both its rows. -/
theorem createPair (id : InstanceId) (step : String) : Sound (m.createPair id step) := by
  obtain ⟨entries, hpairs⟩ := h.checkpoints_paired
  rw [hpairs.createPair]
  split
  · exact .of_error (by simp)
  · next hnew =>
    have hnone : entries.lookup (id, step) = none := Option.not_isSome_iff_eq_none.mp hnew
    exact { h with checkpoints_paired := ⟨_, holdsPairs_append hpairs.distinct hnone⟩ }

/-- A pair keeps both its rows when its tokens change. -/
theorem updatePair (id : InstanceId) (step : String) (pair : CheckpointPair) :
    Sound (m.updatePair id step pair) := by
  obtain ⟨entries, hpairs⟩ := h.checkpoints_paired
  rw [hpairs.updatePair]
  split
  · exact .of_error (by simp)
  · exact { h with checkpoints_paired := ⟨_, holdsPairs_replace hpairs.distinct⟩ }

end WellFormed

/-- An action leaves a ledger well-formed, and does not fail since it found one half of a pair. -/
structure Answers {α : Type} (m : Memory) (x : Action LedgerError Memory α) : Prop where
  wellFormed : WellFormed (x m).state
  kind_ne : ∀ e, (x m).answer = .error e → e.kind ≠ .decodeFailure

/-- A sound change is answered soundly. -/
theorem answers_change {α : Type} {f : Memory → Except LedgerError (α × Memory)}
    (h : WellFormed m) (hf : Sound (f m)) : Answers m (change f) := by
  cases hfm : f m with
  | error e =>
    rw [hfm] at hf
    constructor
    · rw [change_error hfm]
      exact h
    · rw [change_error hfm]
      rintro _ ⟨⟩
      exact hf
  | ok result =>
    rw [hfm] at hf
    constructor
    · rw [change_ok hfm]
      exact hf
    · rw [change_ok hfm]
      rintro _ ⟨⟩

theorem answers_answer {α : Type} (h : WellFormed m) (a : α) : Answers m (answer a) :=
  ⟨h, fun _ he => nomatch he⟩

theorem answers_ok {α : Type} (h : WellFormed m) (f : Memory → α) :
    Answers m (look fun m => .ok (f m)) :=
  ⟨h, fun _ he => nomatch he⟩

/-- What a look fails with has to be sound. -/
theorem answers_look {α : Type} {f : Memory → Except LedgerError α} (h : WellFormed m)
    (hf : ∀ e, f m = .error e → e.kind ≠ .decodeFailure) : Answers m (look f) :=
  ⟨h, hf⟩

/-- Only that an execution is missing is ever wrong with it. -/
theorem execution_error {id : ExecutionId} {e : LedgerError} (h : m.execution id = .error e) :
    e = ⟨.noSuchExecution, .jobExecution id⟩ := by
  rw [execution_eq] at h
  cases he : m.execution? id with
  | none =>
    rw [he] at h
    exact (Except.error.inj h).symm
  | some found =>
    rw [he] at h
    exact nomatch h

/-- What is read off an execution is not damaged. -/
theorem kind_of_execution {α : Type} {id : ExecutionId} {f : JobExecution → Except LedgerError α}
    (hf : ∀ found e, f found = .error e → e.kind ≠ .decodeFailure) (e : LedgerError)
    (h : (m.execution id).bind f = .error e) : e.kind ≠ .decodeFailure := by
  cases hfound : m.execution id with
  | error e' =>
    rw [hfound] at h
    obtain rfl : e' = e := Except.error.inj h
    rw [execution_error hfound]
    exact nofun
  | ok found =>
    rw [hfound] at h
    exact hf found e h

/-- What is read off an execution without a further check is not damaged. -/
theorem kind_of_map {α : Type} {id : ExecutionId} {f : JobExecution → α} (e : LedgerError)
    (h : (m.execution id).map f = .error e) : e.kind ≠ .decodeFailure := by
  cases hfound : m.execution id with
  | error e' =>
    rw [hfound] at h
    obtain rfl : e' = e := Except.error.inj h
    rw [execution_error hfound]
    exact nofun
  | ok found =>
    rw [hfound] at h
    exact nomatch h

/-- A text that is no step name is refused before anything is done. -/
theorem answers_ensureStepName {α : Type} {step : String} {x : Action LedgerError Memory α}
    (h : WellFormed m) (hx : stepNameFault? step = none → Answers m x) :
    Answers m (ensureStepName step >>= fun _ => x) := by
  rw [ensureStepName]
  cases hfault : stepNameFault? step with
  | none => exact ⟨(hx hfault).wellFormed, (hx hfault).kind_ne⟩
  | some fault =>
    refine ⟨h, ?_⟩
    rintro _ ⟨⟩ hkind
    cases hkind

/-- Every call leaves a well-formed ledger well-formed, and none finds one half of a pair. -/
theorem answers_perform (h : WellFormed m) (call : Call) : Answers m (LedgerStore.perform call) := by
  rw [perform_eq]
  cases call with
  | createInstance name appTag definition =>
    exact answers_change h (h.createInstance name appTag definition)
  | createPartition name appTag => exact answers_change h (h.createInstance name.encode appTag none)
  | tagOfInstance id =>
    refine answers_look h fun e he => ?_
    rw [tagOfInstance] at he
    cases hi : m.instance? id with
    | none =>
      rw [hi] at he
      obtain rfl := Except.error.inj he
      exact nofun
    | some i =>
      rw [hi] at he
      exact nomatch he
  | createExecution id parameters status time =>
    exact answers_change h (h.createExecution id parameters status time)
  | markStarted id time | setExecutionStatus id status time
  | finalizeExecution id status exitStatus time =>
    exact answers_change h (h.changeExecution id (fun _ => rfl) (fun _ => rfl) fun _ => rfl)
  | instanceOf id | parametersOf id =>
    exact answers_look h kind_of_map
  | tagOfExecution id =>
    refine answers_look h (kind_of_execution fun found e he => ?_)
    cases hi : m.instance? found.instanceId with
    | none =>
      rw [hi] at he
      obtain rfl := Except.error.inj he
      exact nofun
    | some i =>
      rw [hi] at he
      exact nomatch he
  | jobStatusOf id => exact answers_look h (kind_of_execution fun _ _ he => nomatch he)
  | createStep id step metrics time =>
    have hchange (hstep : stepNameFault? step = none) :
        Answers m (change (Memory.createStep id step metrics time)) :=
      answers_change h (h.createStep id hstep metrics time)
    exact answers_ensureStepName h hchange
  | updateStep id update => exact answers_change h (h.updateStep id update)
  | purge tag => exact answers_change (f := fun m => .ok (m.purge tag)) h (h.purge tag)
  | readiness => exact answers_answer h ()
  | createJobStatus id => exact answers_change h (h.createJobStatus id)
  | updateJobStatus status => exact answers_change h (h.updateJobStatus status)
  | createStepStatus id => exact answers_change h (h.createStepStatus id)
  | updateStepStatus status => exact answers_change h (h.updateStepStatus status)
  | incrementStartCount id => exact answers_change h (h.incrementStartCount id)
  | createPair id step =>
    have hchange : Answers m (change (Memory.createPair id step)) :=
      answers_change h (h.createPair id step)
    exact answers_ensureStepName h fun _ => hchange
  | findPair id step =>
    obtain ⟨entries, hpairs⟩ := h.checkpoints_paired
    refine answers_look h fun e he => ?_
    rw [hpairs.findPair] at he
    exact nomatch he
  | updatePair id step pair => exact answers_change h (h.updatePair id step pair)
  | _ => exact answers_ok h _

/-- Every call keeps a ledger well-formed, whether it fails or not. -/
theorem keeps_wellFormed (call : Call) :
    Keeps WellFormed (LedgerStore.perform call : Action LedgerError Memory call.Answer) :=
  fun _ h => (answers_perform h call).wellFormed

/-- Every ledger in memory that is reached by operations is well-formed. -/
theorem wellFormed_reached (operations : List Operation) :
    WellFormed (Operation.run empty operations) :=
  Operation.run_induction keeps_wellFormed wellFormed_empty operations

end Memory

end JobLedger
