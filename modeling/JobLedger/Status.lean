/-!
# Batch status

The seven states that a job or a step passes through. Each has one upper-case label, under which it
is stored and shown.
-/

namespace JobLedger

/-- The state of a job or of a step. -/
inductive BatchStatus where
  /-- Created, not yet running. -/
  | starting
  /-- Running. -/
  | started
  /-- Asked to stop, still winding down. -/
  | stopping
  /-- Stopped before completion. -/
  | stopped
  /-- Ended with a failure. -/
  | failed
  /-- Ended successfully. -/
  | completed
  /-- Given up by an operator, never to be restarted. -/
  | abandoned
  deriving DecidableEq, Repr

namespace BatchStatus

/-- Every status, in the order in which a run meets them. -/
def all : List BatchStatus :=
  [starting, started, stopping, stopped, failed, completed, abandoned]

/-- The label of a status. -/
def label : BatchStatus → String
  | starting => "STARTING"
  | started => "STARTED"
  | stopping => "STOPPING"
  | stopped => "STOPPED"
  | failed => "FAILED"
  | completed => "COMPLETED"
  | abandoned => "ABANDONED"

/-- The status with a given label. -/
def ofLabel? (label : String) : Option BatchStatus := all.find? fun status => status.label = label

/-- An execution in this status is on its way. -/
def isRunning : BatchStatus → Bool
  | starting | started | stopping => true
  | stopped | failed | completed | abandoned => false

/-- An execution in this status has ended. -/
def isTerminal : BatchStatus → Bool
  | stopped | failed | completed | abandoned => true
  | starting | started | stopping => false

/-- An execution has ended when it is not on its way. -/
theorem isTerminal_eq (status : BatchStatus) : status.isTerminal = !status.isRunning := by
  cases status <;> rfl

theorem ofLabel?_label (status : BatchStatus) : ofLabel? status.label = some status := by
  cases status <;> decide

theorem label_of_ofLabel? {label : String} {status : BatchStatus}
    (h : ofLabel? label = some status) : status.label = label := by
  simpa using List.find?_some h

/-- The moves that a status holder allows: out of `ABANDONED` there is none. -/
def MayMove (origin target : BatchStatus) : Prop := origin = abandoned → target = abandoned

instance (origin target : BatchStatus) : Decidable (MayMove origin target) :=
  inferInstanceAs (Decidable (_ → _))

end BatchStatus

end JobLedger
