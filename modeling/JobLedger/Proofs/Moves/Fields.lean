import JobLedger.Operation

/-!
# Moves of a job, field by field

What a move makes of the status record of an instance is said here without a store. A move writes
the fields that it names, one after the other, and no others. It is refused for a step name that is
none, for leaving `ABANDONED`, and where there is no room for the record that it would leave. Which
records there is room for is a parameter. The record behind some operations is the fold of the moves
that are not refused.
-/

namespace JobLedger

/-- The fields of the status record of an instance. -/
inductive JobStatusField where
  | currentStep
  | status
  | exitStatus
  | latestExecution
  | restartOn
  deriving DecidableEq

/-- A value that is written into a field. -/
inductive JobStatusWrite where
  | currentStep (step : Option String)
  | status (status : BatchStatus)
  | exitStatus (text : Option String)
  | latestExecution (execution : Option ExecutionId)
  | restartOn (step : Option String)
  deriving DecidableEq

/-- The field that a value is written into. -/
def JobStatusWrite.field : JobStatusWrite → JobStatusField
  | currentStep _ => .currentStep
  | status _ => .status
  | exitStatus _ => .exitStatus
  | latestExecution _ => .latestExecution
  | restartOn _ => .restartOn

namespace JobStatus

/-- What stands in a field of a record. -/
def held (record : JobStatus) : JobStatusField → JobStatusWrite
  | .currentStep => .currentStep record.currentStep
  | .status => .status record.status
  | .exitStatus => .exitStatus record.exitStatus
  | .latestExecution => .latestExecution record.latestExecution
  | .restartOn => .restartOn record.restartOn

/-- The record with a value in one of its fields. -/
def write (record : JobStatus) : JobStatusWrite → JobStatus
  | .currentStep step => { record with currentStep := step }
  | .status status => { record with status := status }
  | .exitStatus text => { record with exitStatus := text }
  | .latestExecution execution => { record with latestExecution := execution }
  | .restartOn step => { record with restartOn := step }

/-- The record with values written into its fields, one after the other. -/
def writeAll (record : JobStatus) (writes : List JobStatusWrite) : JobStatus :=
  writes.foldl write record

/-- What a record holds, as values to be written. -/
def writes (record : JobStatus) : List JobStatusWrite :=
  [.currentStep record.currentStep, .status record.status, .exitStatus record.exitStatus,
    .latestExecution record.latestExecution, .restartOn record.restartOn]

/-- A write is made in the record of the same instance. -/
theorem instanceId_write (record : JobStatus) (value : JobStatusWrite) :
    (record.write value).instanceId = record.instanceId := by
  cases value <;> rfl

/-- The field that is written has its new value, and the others have what they had. -/
theorem held_write (record : JobStatus) (value : JobStatusWrite) (field : JobStatusField) :
    (record.write value).held field =
      if value.field = field then value else record.held field := by
  cases value <;> cases field <;> rfl

/-- Writes are made in the record of the same instance. -/
theorem instanceId_writeAll (record : JobStatus) (writes : List JobStatusWrite) :
    (record.writeAll writes).instanceId = record.instanceId := by
  induction writes generalizing record with
  | nil => rfl
  | cons value rest ih => exact (ih (record.write value)).trans (record.instanceId_write value)

/-- A field that no value is written into is left. -/
theorem held_writeAll_of_ne (record : JobStatus) {writes : List JobStatusWrite}
    {field : JobStatusField} (h : ∀ value ∈ writes, value.field ≠ field) :
    (record.writeAll writes).held field = record.held field := by
  induction writes generalizing record with
  | nil => rfl
  | cons value rest ih =>
    obtain ⟨hvalue, hrest⟩ := List.forall_mem_cons.mp h
    have hfirst : (record.write value).held field = record.held field := by
      rw [held_write, if_neg hvalue]
    exact (ih (record.write value) hrest).trans hfirst

/-- A record of the same instance is written as a whole. -/
theorem writeAll_writes {current next : JobStatus} (h : next.instanceId = current.instanceId) :
    current.writeAll next.writes = next := by
  cases next
  subst h
  rfl

end JobStatus

/-- The values that a transition writes. -/
def JobTransition.writes : JobTransition → List JobStatusWrite
  | status target => [.status target]
  | exitStatus text => [.exitStatus (some text)]
  | outcome target text => [.status target, .exitStatus (some text)]
  | currentStep step => [.currentStep (some step)]
  | restartOn step => [.restartOn step]
  | advance execution =>
    [.restartOn none, .latestExecution (some execution), .status .starting]

/-- A move does what its writes do. -/
theorem JobTransition.apply_eq_writeAll (record : JobStatus) (transition : JobTransition) :
    transition.apply record = record.writeAll transition.writes := by
  cases transition <;> rfl

namespace Operation

/-- The instance whose status record an operation of the tracker moves. -/
def movedJob? : Operation → Option InstanceId
  | moveJob id _ => some id
  | updateJobStatus status => some status.instanceId
  | _ => none

/-- The values that an operation of the tracker writes into the record that it moves. -/
def writes : Operation → List JobStatusWrite
  | moveJob _ transition => transition.writes
  | updateJobStatus status => status.writes
  | _ => []

/-- The step that a move names, which is checked. -/
def checkedStep? : Operation → Option String
  | moveJob _ transition => transition.step?
  | _ => none

/-- An operation takes a status record away, or stores one without looking at the one that is
there. -/
def OverridesJobs (operation : Operation) : Prop :=
  (∃ tag, operation = .call (.purge tag)) ∨ ∃ status, operation = .call (.updateJobStatus status)

end Operation

namespace JobStatus

variable (room : JobStatus → Bool)

/-- Why no record may be put in the place of another one, if there is a reason. -/
def refusal? (current next : JobStatus) : Option LedgerError :=
  if current.status = .abandoned ∧ next.status ≠ .abandoned then
    some ⟨.invalidTransition, .leavesAbandoned (.job current.instanceId) next.status⟩
  else if room next then none
  else some ⟨.invalid, .blob (.named "job status") (.payload .tooLong)⟩

/-- Why an operation that moves a record is refused, if there is a reason. -/
def moveRefusal? (current : JobStatus) (operation : Operation) : Option LedgerError :=
  match operation.checkedStep?.bind stepNameFault? with
  | some fault => some ⟨.invalid, .stepName fault⟩
  | none => refusal? room current (current.writeAll operation.writes)

/-- The record behind an operation: with what it writes if the operation moves this record and is
not refused, and otherwise as it was. -/
def after (current : JobStatus) (operation : Operation) : JobStatus :=
  if operation.movedJob? = some current.instanceId ∧ moveRefusal? room current operation = none then
    current.writeAll operation.writes
  else current

/-- Behind an operation, a record is still that of its instance. -/
theorem instanceId_after (current : JobStatus) (operation : Operation) :
    (current.after room operation).instanceId = current.instanceId := by
  rw [after]
  split
  · exact instanceId_writeAll current operation.writes
  · rfl

/-- An operation leaves the fields that it does not name. -/
theorem held_after_of_ne (current : JobStatus) {operation : Operation} {field : JobStatusField}
    (h : ∀ value ∈ operation.writes, value.field ≠ field) :
    (current.after room operation).held field = current.held field := by
  rw [after]
  split
  · exact held_writeAll_of_ne current h
  · rfl

end JobStatus

end JobLedger
