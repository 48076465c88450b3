import JobLedger.Call
import JobLedger.Progress.Transition

/-!
# Tracking the progress of jobs

The status records of a store are moved by this module alone. A move looks up the record as it
stands, refuses to leave `ABANDONED`, and stores the record as a whole.
-/

namespace JobLedger.Tracker

open JobLedger.Action

variable {σ : Type} [LedgerStore σ]

/-- Refuses a move that leaves `ABANDONED`. -/
def ensureMove (holder : StatusHolder) (origin target : BatchStatus) :
    Action LedgerError σ Unit :=
  if BatchStatus.MayMove origin target then answer ()
  else do
    report (.transitionRejected holder target)
    fail ⟨.invalidTransition, .leavesAbandoned holder target⟩

/-- Creates the status record of an instance. -/
def createJobStatus (id : InstanceId) : Action LedgerError σ JobStatus := do
  let status ← perform (.createJobStatus id)
  report (.jobStatusCreated id)
  answer status

/-- The status record of an instance. -/
def jobStatus (id : InstanceId) : Action LedgerError σ JobStatus := do
  let found ← perform (.findJobStatus id)
  ofOption ⟨.notFound, .jobStatus id⟩ found

/-- The status record of the instance of an execution. -/
def jobStatusOf (id : ExecutionId) : Action LedgerError σ JobStatus := do
  let found ← perform (.jobStatusOf id)
  ofOption ⟨.notFound, .jobStatusOf id⟩ found

/-- Puts one status record of an instance in the place of another. -/
def moveJobStatus (current next : JobStatus) : Action LedgerError σ JobStatus := do
  ensureMove (.job current.instanceId) current.status next.status
  perform (.updateJobStatus next)
  report (.jobStatusUpdated next.instanceId current.status next.status)
  answer next

/-- Replaces the status record of an instance. -/
def updateJobStatus (status : JobStatus) : Action LedgerError σ Unit := do
  let current ← jobStatus status.instanceId
  discard (moveJobStatus current status)

/-- Takes the status record of an instance through a transition. -/
def moveJob (id : InstanceId) (transition : JobTransition) : Action LedgerError σ JobStatus := do
  match transition.step? with
  | some step => ensureStepName step
  | none => answer ()
  let current ← jobStatus id
  moveJobStatus current (transition.apply current)

/-- Creates the status record kept under a step execution. -/
def createStepStatus (id : StepId) : Action LedgerError σ StepStatus := do
  let status ← perform (.createStepStatus id)
  report (.stepStatusCreated id)
  answer status

/-- The status record of a step of an instance. -/
def stepStatus (id : InstanceId) (step : String) : Action LedgerError σ StepStatus := do
  ensureStepName step
  let found ← perform (.findStepStatus id step)
  ofOption ⟨.notFound, .namedStepStatus id step⟩ found

/-- Replaces the status record of a step of an instance by one kept under the same step
execution. -/
def updateStepStatus (id : InstanceId) (step : String) (status : StepStatus) :
    Action LedgerError σ Unit := do
  let current ← stepStatus id step
  if current.statusId ≠ status.statusId then
    fail ⟨.invalid, .otherKey id step current.statusId status.statusId⟩
  else do
    ensureMove (.step id step) current.status status.status
    perform (.updateStepStatus status)
    report (.stepStatusUpdated id step status.stepId status.status)

/-- Counts one more start of a step. -/
def incrementStartCount (id : StepId) : Action LedgerError σ UInt32 := do
  let count ← perform (.incrementStartCount id)
  report (.startCountIncremented id count)
  answer count

end JobLedger.Tracker
