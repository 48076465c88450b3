import JobLedger.Error
import JobLedger.Name.Step

/-!
# Transitions of a job status

A job status changes by transitions. Each is a change of the fields it names and of no others. A
transition that names a step needs a proper step name, and none leads out of `ABANDONED`.
-/

namespace JobLedger

/-- A change to a job status. -/
inductive JobTransition where
  /-- Sets the status. -/
  | status (target : BatchStatus)
  /-- Sets the exit status. -/
  | exitStatus (text : String)
  /-- Sets the status and the exit status. -/
  | outcome (target : BatchStatus) (text : String)
  /-- Sets the step that runs now. -/
  | currentStep (step : String)
  /-- Sets or clears the step to resume at. -/
  | restartOn (step : Option String)
  /-- Starts over with a new execution. -/
  | advance (execution : ExecutionId)
  deriving DecidableEq

namespace JobTransition

/-- The job status after a transition. -/
def apply (s : JobStatus) : JobTransition → JobStatus
  | status target => { s with status := target }
  | exitStatus text => { s with exitStatus := some text }
  | outcome target text => { s with status := target, exitStatus := some text }
  | currentStep step => { s with currentStep := some step }
  | restartOn step => { s with restartOn := step }
  | advance execution =>
    { s with restartOn := none, latestExecution := some execution, status := .starting }

/-- The step that a transition names. -/
def step? : JobTransition → Option String
  | currentStep step => some step
  | restartOn step => step
  | _ => none

/-- A transition is about the record of one instance and leaves it with that instance. -/
theorem apply_instanceId (s : JobStatus) (t : JobTransition) :
    (t.apply s).instanceId = s.instanceId := by
  cases t <;> rfl

end JobTransition

end JobLedger
