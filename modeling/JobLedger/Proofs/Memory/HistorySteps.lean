import JobLedger.Proofs.CallLog
import JobLedger.Proofs.Memory.Tables

/-!
# What a success does to the history

A call that succeeds adds an instance, an execution or a step execution, whose number is its answer,
changes one execution or step execution, or purges; or it leaves all three tables alone.
-/

namespace JobLedger

open JobLedger.Action

/-- A call has nothing to do with instances, executions and step executions but to look at them. -/
def Call.SparesHistory : Call → Prop
  | .createInstance .. | .createPartition .. | .createExecution .. | .markStarted ..
  | .setExecutionStatus .. | .finalizeExecution .. | .createStep .. | .updateStep .. | .purge .. =>
    False
  | _ => True

/-- A success tells nothing of instances, executions and step executions. -/
structure Success.IsQuiet (success : Success) : Prop where
  instance_none : success.instance? = none
  execution_none : success.execution? = none
  step_none : success.step? = none
  change_none : success.change? = none
  purged_none : success.purged? = none

theorem Call.SparesHistory.isQuiet {call : Call} (h : call.SparesHistory) (a : call.Answer) :
    Success.IsQuiet ⟨call, a⟩ := by
  cases call <;> first | exact h.elim | exact ⟨rfl, rfl, rfl, rfl, rfl⟩

namespace Memory

/-- A call that spares the history leaves it, and the counters. -/
theorem Changes.spares_history {m next : Memory} {call : Call} (h : Changes call m next)
    (hspares : call.SparesHistory) : ∃ jobStatuses stepStatuses checkpoints,
      next = { m with jobStatuses, stepStatuses, checkpoints } := by
  cases h with
  | same => exact ⟨_, _, _, rfl⟩
  | createJobStatus | updateJobStatus | createStepStatus | updateStepStatus | incrementStartCount =>
    exact ⟨_, _, _, rfl⟩
  | createPair hname h =>
    obtain rfl := createPair_eq_ok h
    exact ⟨_, _, _, rfl⟩
  | updatePair h =>
    obtain rfl := updatePair_eq_ok h
    exact ⟨_, _, _, rfl⟩
  | _ => exact hspares.elim

/-- What a call that succeeds does to the history of a ledger. -/
inductive HistoryStep (m : Memory) : Success → Memory → Prop where
  | addInstance {success : Success} {i : JobInstance}
      (hmade : success = ⟨.createInstance i.name i.appTag i.definition, i⟩ ∨
        ∃ name, success = ⟨.createPartition name i.appTag, i⟩)
      (hid : i.id.number = m.lastInstance + 1) :
    HistoryStep m success
      { m with lastInstance := i.id.number, instances := m.instances ++ [i] }
  | addExecution {id : InstanceId} {i : JobInstance} {execution : ExecutionId}
      {parameters : JobParameters} {status : BatchStatus} {time : Timestamp}
      (hi : m.instance? id = some i) (hid : execution.number = m.lastExecution + 1) :
    HistoryStep m ⟨.createExecution id parameters status time, execution⟩
      { m with
        lastExecution := execution.number
        executions := m.executions ++
          [⟨execution, id, i.name, time, none, none, time, status, none, parameters⟩] }
  | markStarted {id : ExecutionId} {e : JobExecution} {time : Timestamp}
      (he : m.execution? id = some e) :
    HistoryStep m ⟨.markStarted id time, ()⟩
      (m.modifyExecution id (ExecutionChange.started time).apply)
  | setExecutionStatus {id : ExecutionId} {e : JobExecution} {status : BatchStatus}
      {time : Timestamp} (he : m.execution? id = some e) :
    HistoryStep m ⟨.setExecutionStatus id status time, ()⟩
      (m.modifyExecution id (ExecutionChange.moved status time).apply)
  | finalizeExecution {id : ExecutionId} {e : JobExecution} {status : BatchStatus}
      {exitStatus : String} {time : Timestamp} (he : m.execution? id = some e) :
    HistoryStep m ⟨.finalizeExecution id status exitStatus time, ()⟩
      (m.modifyExecution id (ExecutionChange.ended status exitStatus time).apply)
  | addStep {id : ExecutionId} {e : JobExecution} {stepId : StepId} {step : String}
      {metrics : StepMetrics} {time : Timestamp} (he : m.execution? id = some e)
      (hid : stepId.number = m.lastStep + 1) :
    HistoryStep m ⟨.createStep id step metrics time, stepId⟩
      { m with
        lastStep := stepId.number
        steps := m.steps ++ [⟨stepId, id, step, .starting, none, metrics, time, none, none⟩] }
  | updateStep {id : StepId} {update : StepUpdate} :
    HistoryStep m ⟨.updateStep id update, ()⟩ (m.modifyStep id update.apply)
  | purge {tag : String} {summary : PurgeSummary} :
    HistoryStep m ⟨.purge tag, summary⟩ (m.remaining tag)
  | quiet {success : Success} (hquiet : success.IsQuiet) {jobStatuses : List JobStatus}
      {stepStatuses : List StepStatus} {checkpoints : List (String × Option Text.Octets)} :
    HistoryStep m success { m with jobStatuses, stepStatuses, checkpoints }

/-- A call that succeeds does to the history what it is for. -/
theorem historyStep_of_ok {m : Memory} (hformed : m.WellFormed) {call : Call} {a : call.Answer}
    (h : (LedgerStore.perform call m).answer = .ok a) :
    HistoryStep m ⟨call, a⟩ (LedgerStore.perform call m).state := by
  have hquiet (hspares : call.SparesHistory) :
      HistoryStep m ⟨call, a⟩ (LedgerStore.perform call m).state := by
    obtain ⟨_, _, _, hnext⟩ := (changes_perform call m).spares_history hspares
    rw [hnext]
    exact .quiet (hspares.isQuiet a)
  rw [perform_eq] at h hquiet ⊢
  cases call with
  | createInstance name appTag definition =>
    obtain ⟨id, hid, rfl, hnext⟩ := createInstance_eq_ok (change_eq_ok h)
    rw [Memory.whole, hnext]
    exact .addInstance (i := ⟨id, name, appTag, definition⟩) (.inl rfl) (nextId_eq_ok_iff.mp hid)
  | createPartition name appTag =>
    obtain ⟨id, hid, rfl, hnext⟩ := createInstance_eq_ok (change_eq_ok h)
    rw [Memory.whole, hnext]
    exact .addInstance (i := ⟨id, name.encode, appTag, none⟩) (.inr ⟨name, rfl⟩)
      (nextId_eq_ok_iff.mp hid)
  | createExecution id parameters status time =>
    obtain ⟨i, hi, hid, hnext⟩ := createExecution_eq_ok (change_eq_ok h)
    rw [Memory.whole, hnext]
    exact .addExecution hi (nextId_eq_ok_iff.mp hid)
  | markStarted id time =>
    obtain ⟨e, he, hnext⟩ := changeExecution_eq_ok (change_eq_ok h)
    rw [Memory.whole, markStarted, hnext]
    exact .markStarted he
  | setExecutionStatus id status time =>
    obtain ⟨e, he, hnext⟩ := changeExecution_eq_ok (change_eq_ok h)
    rw [Memory.whole, setExecutionStatus, hnext]
    exact .setExecutionStatus he
  | finalizeExecution id status exitStatus time =>
    obtain ⟨e, he, hnext⟩ := changeExecution_eq_ok (change_eq_ok h)
    rw [Memory.whole, finalizeExecution, hnext]
    exact .finalizeExecution he
  | createStep id step metrics time =>
    rw [Memory.whole, ensureStepName] at h ⊢
    cases hfault : stepNameFault? step with
    | some fault =>
      rw [hfault] at h
      cases h
    | none =>
      rw [hfault] at h
      have hcreated : (Action.change (createStep id step metrics time) m).answer = .ok a := h
      obtain ⟨e, he, hid, hnext⟩ := createStep_eq_ok (change_eq_ok hcreated)
      change HistoryStep m _ (Action.change (createStep id step metrics time) m).state
      rw [hnext]
      exact .addStep he (nextId_eq_ok_iff.mp hid)
  | updateStep id update =>
    obtain ⟨s, owner, -, -, -, hnext⟩ := updateStep_eq_ok (change_eq_ok h)
    rw [Memory.whole, hnext]
    exact .updateStep
  | purge tag =>
    rw [← perform_eq, hformed.perform_purge tag]
    exact .purge
  | _ => exact hquiet trivial

end Memory

end JobLedger
