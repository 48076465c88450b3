import JobLedger.Proofs.Memory.Tables
import JobLedger.Proofs.Share
import Mathlib.Data.List.Basic

/-!
# Parts of a ledger in memory

A share in a ledger has its rows in each table. A call that stays in a share finds all that it looks
at among these rows: it is answered as on the ledger that has no other ones, and does the same to
them. The rows of every other share are as they were.
-/

namespace JobLedger

open JobLedger.Action Text

namespace Share

/-- A row of restart tokens is under a key of the instance. -/
def holdsKey (share : Share) (key : String) : Bool :=
  (CheckpointKey.instancePrefix share.id).toList.isPrefixOf key.toList

/-- A share holds the keys of its instance and no others. -/
theorem holdsKey_encode (share : Share) (key : CheckpointKey) :
    share.holdsKey key.encode = decide (key.instanceId = share.id) := by
  rw [Bool.eq_iff_iff, holdsKey, CheckpointKey.isPrefixOf_encode, decide_eq_true_eq]

/-- The ledger with no rows but those of a share. -/
def part (share : Share) (m : Memory) : Memory :=
  { m with
    instances := m.instances.filter fun i => i.id = share.id
    executions := m.executions.filter fun e => share.executions e.id
    steps := m.steps.filter fun s => share.steps s.id
    jobStatuses := m.jobStatuses.filter fun status => status.instanceId = share.id
    stepStatuses := m.stepStatuses.filter fun status => share.steps status.statusId
    checkpoints := m.checkpoints.filter fun row => share.holdsKey row.1 }

/-- A share has exactly those executions of a ledger that are of its instance, and exactly those step
executions that are of its executions. -/
structure Marks (share : Share) (m : Memory) : Prop where
  execution : ∀ e ∈ m.executions, share.executions e.id = decide (e.instanceId = share.id)
  step : ∀ s ∈ m.steps, share.steps s.id = share.executions s.executionId

variable {share : Share} {m : Memory}

/-! ## What is found in a part -/

section Lookup

/-- The instance of a share is found in the part as in the whole ledger. -/
theorem instance?_part : (share.part m).instance? share.id = m.instance? share.id :=
  find?_filter_key JobInstance.id (fun id => id = share.id) (decide_eq_true rfl)

/-- The executions of a share are found in its part as in the whole ledger. -/
theorem execution?_part {id : ExecutionId} (h : share.executions id = true) :
    (share.part m).execution? id = m.execution? id :=
  find?_filter_key JobExecution.id share.executions h

/-- The step executions of a share are found in its part as in the whole ledger. -/
theorem step?_part {id : StepId} (h : share.steps id = true) :
    (share.part m).step? id = m.step? id :=
  find?_filter_key StepExecution.id share.steps h

/-- The status record of the instance is found in the part. -/
theorem jobStatus?_part : (share.part m).jobStatus? share.id = m.jobStatus? share.id :=
  find?_filter_key JobStatus.instanceId (fun id => id = share.id) (decide_eq_true rfl)

/-- The status records of the steps of a share are found in its part. -/
theorem stepStatus?_part {id : StepId} (h : share.steps id = true) :
    (share.part m).stepStatus? id = m.stepStatus? id :=
  find?_filter_key StepStatus.statusId share.steps h

/-- The tokens of an instance are found in its part. -/
theorem token?_part {key : CheckpointKey} (h : key.instanceId = share.id) :
    (share.part m).token? key = m.token? key :=
  lookup_filter_key ((share.holdsKey_encode key).trans (decide_eq_true h))

/-- An execution of a share is missing in the part only if it is missing at all. -/
theorem execution_part {id : ExecutionId} (h : share.executions id = true) :
    (share.part m).execution id = m.execution id := by
  rw [Memory.execution, execution?_part h, Memory.execution]

end Lookup

/-! ## What is changed in a part -/

section Change

/-- Taking the part and changing an execution may change places. -/
theorem part_modifyExecution {id : ExecutionId} {f : JobExecution → JobExecution}
    (hf : ∀ e, (f e).id = e.id) :
    share.part (m.modifyExecution id f) = (share.part m).modifyExecution id f :=
  congrArg (fun rows => { share.part m with executions := rows })
    (filter_changeRow share.executions fun e _ => hf e)

/-- Taking the part and changing a step execution may change places. -/
theorem part_modifyStep {id : StepId} {f : StepExecution → StepExecution}
    (hf : ∀ s, (f s).id = s.id) :
    share.part (m.modifyStep id f) = (share.part m).modifyStep id f :=
  congrArg (fun rows => { share.part m with steps := rows })
    (filter_changeRow share.steps fun s _ => hf s)

/-- Taking the part and replacing a status record may change places. -/
theorem part_setJobStatus (status : JobStatus) :
    share.part (m.setJobStatus status) = (share.part m).setJobStatus status :=
  congrArg (fun rows => { share.part m with jobStatuses := rows })
    (filter_changeRow (fun id => id = share.id) fun _ hold => hold.symm)

/-- Taking the part and replacing the status record of a step may change places. -/
theorem part_setStepStatus (status : StepStatus) :
    share.part (m.setStepStatus status) = (share.part m).setStepStatus status :=
  congrArg (fun rows => { share.part m with stepStatuses := rows })
    (filter_changeRow share.steps fun _ hold => hold.symm)

/-- Taking the part and replacing a token may change places. -/
theorem part_setToken (key : CheckpointKey) (token : Option Octets) :
    share.part (m.setToken key token) = (share.part m).setToken key token :=
  congrArg (fun rows => { share.part m with checkpoints := rows })
    (filter_changeRow (f := fun row : String × Option Octets => (row.1, token)) share.holdsKey
      fun _ _ => rfl)

/-- A status record that is added for the instance is added to the part. -/
theorem part_addJobStatus {status : JobStatus} (hid : status.instanceId = share.id) :
    share.part { m with jobStatuses := m.jobStatuses ++ [status] } =
      { share.part m with jobStatuses := (share.part m).jobStatuses ++ [status] } :=
  congrArg (fun rows : List JobStatus => { share.part m with jobStatuses := rows })
    (filter_append_of_all (List.forall_mem_singleton.mpr (decide_eq_true hid)))

/-- A status record that is added under a step execution of the share is added to the part. -/
theorem part_addStepStatus {status : StepStatus} (hid : share.steps status.statusId = true) :
    share.part { m with stepStatuses := m.stepStatuses ++ [status] } =
      { share.part m with stepStatuses := (share.part m).stepStatuses ++ [status] } :=
  congrArg (fun rows : List StepStatus => { share.part m with stepStatuses := rows })
    (filter_append_of_all (List.forall_mem_singleton.mpr hid))

/-- Rows that are added under keys of the share are added to the part. -/
theorem part_addTokens {first second : String × Option Octets} (hfirst : share.holdsKey first.1 = true)
    (hsecond : share.holdsKey second.1 = true) :
    share.part { m with checkpoints := m.checkpoints ++ [first, second] } =
      { share.part m with checkpoints := (share.part m).checkpoints ++ [first, second] } := by
  have hall : ∀ row ∈ [first, second], share.holdsKey row.1 = true :=
    List.forall_mem_cons.mpr ⟨hfirst, List.forall_mem_singleton.mpr hsecond⟩
  exact congrArg (fun rows => { share.part m with checkpoints := rows }) (filter_append_of_all hall)

end Change

/-! ## Calls on a part -/

/-- A change of a ledger, or an error, is that of a part of it, with the answer. -/
def Restricts {α : Type} (share : Share) (f : Memory → Except LedgerError (α × Memory))
    (m : Memory) : Prop :=
  f (share.part m) = (f m).map fun result => (result.1, share.part result.2)

section Calls

/-- Changing an execution of a share works on the part as on the whole ledger. -/
theorem restricts_changeExecution {id : ExecutionId} {f : JobExecution → JobExecution}
    (h : share.executions id = true) (hf : ∀ e, (f e).id = e.id) :
    share.Restricts (Memory.changeExecution id f) m := by
  rw [Restricts, Memory.changeExecution, Memory.changeExecution, execution_part h,
    ← part_modifyExecution hf]
  cases m.execution id with
  | error e => rfl
  | ok e => rfl

/-- Whether a step execution may still change is seen in the part, which has its owner. -/
theorem restricts_updateStep (hmarks : share.Marks m) {id : StepId} (h : share.steps id = true)
    (update : StepUpdate) : share.Restricts (Memory.updateStep id update) m := by
  have hmodify : share.part (m.modifyStep id update.apply) =
      (share.part m).modifyStep id update.apply := part_modifyStep fun _ => rfl
  rw [Restricts, Memory.updateStep, Memory.updateStep, step?_part h, ← hmodify]
  cases hs : m.step? id with
  | none => rfl
  | some s =>
    have hid : s.id = id := key_of_find? StepExecution.id hs
    have howner := hmarks.step s (List.mem_of_find?_eq_some hs)
    rw [hid, h] at howner
    dsimp only
    rw [execution_part howner.symm]
    cases m.execution s.executionId with
    | error e => rfl
    | ok owner =>
      rw [ok_bind, ok_bind]
      split <;> rfl

/-- The status record of the instance is created in the part as in the whole ledger. -/
theorem restricts_createJobStatus : share.Restricts (Memory.createJobStatus share.id) m := by
  rw [Restricts, Memory.createJobStatus, Memory.createJobStatus, instance?_part, jobStatus?_part]
  split
  · rfl
  · split
    · rfl
    · dsimp only
      have hadd : share.part { m with jobStatuses := m.jobStatuses ++ [JobStatus.fresh share.id] } =
          _ := part_addJobStatus rfl
      rw [← hadd]
      rfl

/-- The status record of the instance is replaced in the part as in the whole ledger. -/
theorem restricts_updateJobStatus {status : JobStatus} (h : status.instanceId = share.id) :
    share.Restricts (Memory.updateJobStatus status) m := by
  rw [Restricts, Memory.updateJobStatus, Memory.updateJobStatus, h, jobStatus?_part,
    ← part_setJobStatus]
  split <;> rfl

/-- The status record of a step of the share is created in the part as in the whole ledger. -/
theorem restricts_createStepStatus {id : StepId} (h : share.steps id = true) :
    share.Restricts (Memory.createStepStatus id) m := by
  rw [Restricts, Memory.createStepStatus, Memory.createStepStatus, step?_part h, stepStatus?_part h]
  split
  · rfl
  · split
    · rfl
    · dsimp only
      have hadd : share.part { m with stepStatuses := m.stepStatuses ++ [StepStatus.fresh id] } =
          _ := part_addStepStatus h
      rw [← hadd]
      rfl

/-- The status record of a step of the share is replaced in the part as in the whole ledger. -/
theorem restricts_updateStepStatus {status : StepStatus} (h : share.steps status.statusId = true) :
    share.Restricts (Memory.updateStepStatus status) m := by
  rw [Restricts, Memory.updateStepStatus, Memory.updateStepStatus, stepStatus?_part h,
    ← part_setStepStatus]
  split <;> rfl

/-- A start of a step of the share is counted in the part as in the whole ledger. -/
theorem restricts_incrementStartCount {id : StepId} (h : share.steps id = true) :
    share.Restricts (Memory.incrementStartCount id) m := by
  rw [Restricts, Memory.incrementStartCount, Memory.incrementStartCount, stepStatus?_part h]
  cases m.stepStatus? id with
  | none => rfl
  | some status =>
    dsimp only
    rw [← part_setStepStatus]
    split <;> rfl

/-- A pair of the instance is created in the part as in the whole ledger. -/
theorem restricts_createPair (step : String) :
    share.Restricts (Memory.createPair share.id step) m := by
  have hkey (kind : CheckpointKind) :
      share.holdsKey (CheckpointKey.ofPair share.id step kind).encode = true :=
    (share.holdsKey_encode _).trans (decide_eq_true rfl)
  have hadd : share.part { m with
      checkpoints := m.checkpoints ++
        [((CheckpointKey.ofPair share.id step .reader).encode, none),
          ((CheckpointKey.ofPair share.id step .writer).encode, none)] } = _ :=
    part_addTokens (hkey .reader) (hkey .writer)
  rw [Restricts, Memory.createPair, Memory.createPair, token?_part rfl, token?_part rfl, ← hadd]
  split
  · rfl
  · rfl

/-- A pair of the instance is replaced in the part as in the whole ledger. -/
theorem restricts_updatePair (step : String) (pair : CheckpointPair) :
    share.Restricts (Memory.updatePair share.id step pair) m := by
  have hset : share.part ((m.setToken (.ofPair share.id step .reader) pair.reader).setToken
      (.ofPair share.id step .writer) pair.writer) =
        ((share.part m).setToken (.ofPair share.id step .reader) pair.reader).setToken
          (.ofPair share.id step .writer) pair.writer := by
    rw [part_setToken, part_setToken]
  rw [Restricts, Memory.updatePair, Memory.updatePair, token?_part rfl, token?_part rfl, ← hset]
  split
  · rfl
  · rfl

/-- A look at a ledger is the same look at a part of it. -/
def Sees {α : Type} (share : Share) (f : Memory → α) (m : Memory) : Prop := f (share.part m) = f m

/-- From an execution of a share, the part leads to the same status record. -/
theorem sees_jobStatusOf (hmarks : share.Marks m) {id : ExecutionId}
    (h : share.executions id = true) : share.Sees (Memory.jobStatusOf id) m := by
  rw [Sees, Memory.jobStatusOf, Memory.jobStatusOf, execution_part h, Memory.execution_eq]
  cases he : m.execution? id with
  | none => rfl
  | some e =>
    have hid : e.id = id := key_of_find? JobExecution.id he
    have howner := hmarks.execution e (List.mem_of_find?_eq_some he)
    rw [hid, h] at howner
    rw [ok_bind, ok_bind, of_decide_eq_true howner.symm, jobStatus?_part]

/-- The step executions of the instance are those that the share has. -/
theorem stepsOfInstance_part (hformed : m.WellFormed) (hmarks : share.Marks m) :
    (share.part m).stepsOfInstance share.id = m.stepsOfInstance share.id := by
  rw [Memory.stepsOfInstance, Memory.stepsOfInstance, part, List.filter_filter]
  refine List.filter_congr fun s hs => ?_
  obtain ⟨e, he⟩ := hformed.exists_execution hs
  obtain ⟨hmem, hid⟩ := hformed.execution?_eq_some_iff.mp he
  have howner := hmarks.execution e hmem
  rw [hid] at howner
  rw [hmarks.step s hs]
  cases hin : share.executions s.executionId with
  | true =>
    have hfound : (share.part m).execution? s.executionId = some e := (execution?_part hin).trans he
    rw [part] at hfound
    rw [hfound, he, Bool.and_true]
  | false =>
    rw [Bool.and_false, he, Option.any_some, ← howner, hin]

/-- The part has all the step executions that are gone through for the status of a step. -/
theorem sees_findStepStatus (hformed : m.WellFormed) (hmarks : share.Marks m) (step : String) :
    share.Sees (Memory.findStepStatus share.id step) m := by
  rw [Sees, Memory.findStepStatus, Memory.findStepStatus, stepsOfInstance_part hformed hmarks]
  rw [← List.head?_filterMap, ← List.head?_filterMap]
  refine congrArg List.head? (List.filterMap_congr fun s hs => ?_)
  have hown := (List.mem_filter.mp hs).1
  rw [← stepsOfInstance_part hformed hmarks] at hown
  exact stepStatus?_part (List.mem_filter.mp (List.mem_filter.mp hown).1).2

/-- The part has both rows of a pair of the instance. -/
theorem sees_findPair (step : String) : share.Sees (Memory.findPair share.id step) m := by
  rw [Sees, Memory.findPair, Memory.findPair, token?_part rfl, token?_part rfl]

/-- An action on a ledger is that on a part of it, with the answer. -/
def Confines {α : Type} (share : Share) (x : Action LedgerError Memory α) (m : Memory) : Prop :=
  (x (share.part m)).answer = (x m).answer ∧ (x (share.part m)).state = share.part (x m).state

/-- A change that a part decides on is confined to the share. -/
theorem Restricts.confines {α : Type} {f : Memory → Except LedgerError (α × Memory)}
    (h : share.Restricts f m) : share.Confines (change f) m := by
  rw [Restricts] at h
  cases hf : f m with
  | error e =>
    rw [hf] at h
    rw [Confines, change_error hf, change_error h]
    exact ⟨rfl, rfl⟩
  | ok result =>
    rw [hf] at h
    rw [Confines, change_ok hf, change_ok h]
    exact ⟨rfl, rfl⟩

/-- A look that needs the part only is confined to the share. -/
theorem Sees.confines {α : Type} {f : Memory → Except LedgerError α} (h : share.Sees f m) :
    share.Confines (look f) m :=
  ⟨h, rfl⟩

/-- A step name is checked without a look at the ledger. -/
theorem Confines.checked {α : Type} {x : Action LedgerError Memory α} (h : share.Confines x m)
    (step : String) : share.Confines (ensureStepName step >>= fun _ => x) m := by
  rcases ensureStepName_cases step with hname | ⟨e, hfail⟩
  · rw [ensureStepName_bind (hname Memory)]
    exact h
  · rw [hfail]
    exact ⟨rfl, rfl⟩

/-- A call that stays in a share is answered from the rows of the share, and changes these. -/
theorem confines_perform (hformed : m.WellFormed) (hmarks : share.Marks m) {call : Call}
    (h : call.StaysIn share) :
    share.Confines (perform call : Action LedgerError Memory call.Answer) m := by
  rw [Memory.perform_eq]
  cases call with
  | markStarted id time =>
    exact Restricts.confines (f := Memory.markStarted id time)
      (restricts_changeExecution h fun _ => rfl)
  | setExecutionStatus id status time =>
    exact Restricts.confines (f := Memory.setExecutionStatus id status time)
      (restricts_changeExecution h fun _ => rfl)
  | finalizeExecution id status exitStatus time =>
    exact Restricts.confines (f := Memory.finalizeExecution id status exitStatus time)
      (restricts_changeExecution h fun _ => rfl)
  | jobStatusOf id => exact (sees_jobStatusOf hmarks h).confines
  | updateStep id update => exact (restricts_updateStep hmarks h update).confines
  | createStepStatus id => exact (restricts_createStepStatus h).confines
  | incrementStartCount id => exact (restricts_incrementStartCount h).confines
  | updateStepStatus status => exact (restricts_updateStepStatus h).confines
  | updateJobStatus status => exact (restricts_updateJobStatus h).confines
  | createJobStatus id =>
    obtain rfl : id = share.id := h
    exact restricts_createJobStatus.confines
  | findJobStatus id =>
    obtain rfl : id = share.id := h
    exact Sees.confines (congrArg Except.ok jobStatus?_part)
  | findStepStatus id step =>
    obtain rfl : id = share.id := h
    exact Sees.confines (congrArg Except.ok (sees_findStepStatus hformed hmarks step))
  | createPair id step =>
    obtain rfl : id = share.id := h
    exact (restricts_createPair step).confines.checked step
  | findPair id step =>
    obtain rfl : id = share.id := h
    exact (sees_findPair step).confines
  | updatePair id step pair =>
    obtain rfl : id = share.id := h
    exact (restricts_updatePair step pair).confines
  | _ => exact h.elim

end Calls

/-! ## Other parts -/

section Frame

variable {other : Share} (hapart : share.Apart other)

include hapart

/-- An execution of one share is changed outside the part of another. -/
theorem part_modifyExecution_of_apart {id : ExecutionId} {f : JobExecution → JobExecution}
    (h : share.executions id = true) (hf : ∀ e, (f e).id = e.id) :
    other.part (m.modifyExecution id f) = other.part m :=
  congrArg (fun rows => { other.part m with executions := rows })
    (filter_changeRow_of_not (hapart.executions h) fun e _ => hf e)

/-- A step execution of one share is changed outside the part of another. -/
theorem part_modifyStep_of_apart {id : StepId} {f : StepExecution → StepExecution}
    (h : share.steps id = true) (hf : ∀ s, (f s).id = s.id) :
    other.part (m.modifyStep id f) = other.part m :=
  congrArg (fun rows => { other.part m with steps := rows })
    (filter_changeRow_of_not (hapart.steps h) fun s _ => hf s)

/-- A status record of one instance is replaced outside the part of another. -/
theorem part_setJobStatus_of_apart {status : JobStatus} (h : status.instanceId = share.id) :
    other.part (m.setJobStatus status) = other.part m :=
  congrArg (fun rows => { other.part m with jobStatuses := rows })
    (filter_changeRow_of_not (p := fun id => id = other.id)
      (decide_eq_false fun hid => hapart.id_ne (h.symm.trans hid)) fun _ hold => hold.symm)

/-- The status record of a step of one share is replaced outside the part of another. -/
theorem part_setStepStatus_of_apart {status : StepStatus} (h : share.steps status.statusId = true) :
    other.part (m.setStepStatus status) = other.part m :=
  congrArg (fun rows => { other.part m with stepStatuses := rows })
    (filter_changeRow_of_not (hapart.steps h) fun _ hold => hold.symm)

/-- A status record is added outside the parts of other instances. -/
theorem part_addJobStatus_of_apart {status : JobStatus} (h : status.instanceId = share.id) :
    other.part { m with jobStatuses := m.jobStatuses ++ [status] } = other.part m :=
  congrArg (fun rows : List JobStatus => { other.part m with jobStatuses := rows })
    (filter_append_of_none (List.forall_mem_singleton.mpr
      (decide_eq_false fun hid => hapart.id_ne (h.symm.trans hid))))

/-- The status record of a step is added outside the parts of other shares. -/
theorem part_addStepStatus_of_apart {status : StepStatus} (h : share.steps status.statusId = true) :
    other.part { m with stepStatuses := m.stepStatuses ++ [status] } = other.part m :=
  congrArg (fun rows : List StepStatus => { other.part m with stepStatuses := rows })
    (filter_append_of_none (List.forall_mem_singleton.mpr (hapart.steps h)))

/-- A key of one instance is in no other share. -/
theorem holdsKey_of_apart {key : CheckpointKey} (h : key.instanceId = share.id) :
    other.holdsKey key.encode = false :=
  (other.holdsKey_encode key).trans
    (decide_eq_false fun hid => hapart.id_ne (h.symm.trans hid))

omit hapart in
/-- Rows under keys that are not in a share are added outside its part. -/
theorem part_addTokens_of_not {first second : String × Option Octets}
    (hfirst : other.holdsKey first.1 = false) (hsecond : other.holdsKey second.1 = false) :
    other.part { m with checkpoints := m.checkpoints ++ [first, second] } = other.part m := by
  have hnone : ∀ row ∈ [first, second], other.holdsKey row.1 = false :=
    List.forall_mem_cons.mpr ⟨hfirst, List.forall_mem_singleton.mpr hsecond⟩
  exact congrArg (fun rows => { other.part m with checkpoints := rows })
    (filter_append_of_none hnone)

/-- A token of one instance is replaced outside the part of another. -/
theorem part_setToken_of_apart {key : CheckpointKey} (h : key.instanceId = share.id)
    (token : Option Octets) : other.part (m.setToken key token) = other.part m :=
  congrArg (fun rows => { other.part m with checkpoints := rows })
    (filter_changeRow_of_not (f := fun row : String × Option Octets => (row.1, token))
      (holdsKey_of_apart hapart h) fun _ _ => rfl)

/-- A pair of one instance is created outside the part of another. -/
theorem part_createPair_of_apart {step : String} {next : Memory}
    (h : m.createPair share.id step = .ok ((), next)) : other.part next = other.part m := by
  have hkey (kind : CheckpointKind) :
      other.holdsKey (CheckpointKey.ofPair share.id step kind).encode = false :=
    holdsKey_of_apart hapart rfl
  rw [Memory.createPair_eq_ok h]
  exact part_addTokens_of_not (hkey .reader) (hkey .writer)

/-- A pair of one instance is replaced outside the part of another. -/
theorem part_updatePair_of_apart {step : String} {pair : CheckpointPair} {next : Memory}
    (h : m.updatePair share.id step pair = .ok ((), next)) : other.part next = other.part m := by
  rw [Memory.updatePair_eq_ok h, part_setToken_of_apart hapart rfl,
    part_setToken_of_apart hapart rfl]

/-- A call that stays in a share leaves the part of another one. -/
theorem part_perform_of_apart {call : Call} (h : call.StaysIn share) :
    other.part (perform call m).state = other.part m := by
  have hchange := Memory.changes_perform call m
  generalize (perform call m).state = next at hchange
  cases hchange with
  | same => rfl
  | markStarted | setExecutionStatus | finalizeExecution =>
    exact part_modifyExecution_of_apart hapart h fun _ => rfl
  | updateStep => exact part_modifyStep_of_apart hapart h fun _ => rfl
  | @createJobStatus _ id =>
    obtain rfl : id = share.id := h
    exact part_addJobStatus_of_apart hapart rfl
  | updateJobStatus => exact part_setJobStatus_of_apart hapart h
  | createStepStatus => exact part_addStepStatus_of_apart hapart h
  | updateStepStatus => exact part_setStepStatus_of_apart hapart h
  | @incrementStartCount _ id old hold =>
    have hid : old.statusId = id := key_of_find? StepStatus.statusId hold
    exact part_setStepStatus_of_apart hapart (hid.symm ▸ h)
  | @createPair _ _ id step _ hchange =>
    obtain rfl : id = share.id := h
    exact part_createPair_of_apart hapart hchange
  | @updatePair _ _ id step pair hchange =>
    obtain rfl : id = share.id := h
    exact part_updatePair_of_apart hapart hchange
  | createInstance | createPartition | createExecution | createStep | purge => exact h.elim

end Frame

/-! ## Whom what belongs to -/

namespace Marks

variable (h : share.Marks m)

include h

/-- A share marks what it did as long as executions and step executions stay. -/
theorem of_eq {next : Memory} (hexecutions : next.executions = m.executions)
    (hsteps : next.steps = m.steps) : share.Marks next :=
  ⟨hexecutions ▸ h.execution, hsteps ▸ h.step⟩

/-- An execution that keeps its number and its instance stays in its share. -/
theorem modifyExecution {id : ExecutionId} {f : JobExecution → JobExecution}
    (hid : ∀ e, (f e).id = e.id) (howner : ∀ e, (f e).instanceId = e.instanceId) :
    share.Marks (m.modifyExecution id f) :=
  ⟨forall_changeRow JobExecution.id h.execution fun e _ he => by rw [hid, howner, he], h.step⟩

/-- A step execution that keeps its number and its execution stays in its share. -/
theorem modifyStep {id : StepId} {f : StepExecution → StepExecution} (hid : ∀ s, (f s).id = s.id)
    (howner : ∀ s, (f s).executionId = s.executionId) : share.Marks (m.modifyStep id f) :=
  ⟨h.execution, forall_changeRow StepExecution.id h.step fun s _ hs => by rw [hid, howner, hs]⟩

/-- A call that stays in some share leaves what belongs to whom. -/
theorem perform {stays : Share} {call : Call} (hcall : call.StaysIn stays) :
    share.Marks (LedgerStore.perform call m).state := by
  have hchange := Memory.changes_perform call m
  generalize (LedgerStore.perform call m).state = next at hchange
  cases hchange with
  | markStarted | setExecutionStatus | finalizeExecution =>
    exact h.modifyExecution (fun _ => rfl) fun _ => rfl
  | updateStep => exact h.modifyStep (fun _ => rfl) fun _ => rfl
  | createPair _ hchange =>
    obtain rfl := Memory.createPair_eq_ok hchange
    exact h.of_eq rfl rfl
  | updatePair hchange =>
    obtain rfl := Memory.updatePair_eq_ok hchange
    exact h.of_eq rfl rfl
  | createInstance | createPartition | createExecution | createStep | purge => exact hcall.elim
  | _ => exact h.of_eq rfl rfl

end Marks

end Share

end JobLedger
