import JobLedger.Frame
import JobLedger.Id
import JobLedger.Name.Step
import JobLedger.Record.Progress
import JobLedger.Text.Decimal

/-!
# Errors of the ledger

An error has a kind, which tells a caller what to do about it, and a cause, which says what it is
about. Its wording is that of the kind followed by that of the cause.
-/

namespace JobLedger

open Text

/-- Where a blob stands, or what it was meant to hold. -/
inductive BlobPlace where
  /-- The parameters column of an execution. -/
  | parametersOf (id : ExecutionId)
  /-- The data column of a step execution. -/
  | userDataOf (id : StepId)
  /-- The row of a checkpoint key. -/
  | checkpointRow (key : String)
  /-- The status row of a job instance, by its row number. -/
  | jobStatusRow (row : Int)
  /-- The status row of a step, by its row number. -/
  | stepStatusRow (row : Int)
  /-- One token of a checkpoint pair. -/
  | tokenOf (id : InstanceId) (step : String) (kind : CheckpointKind)
  /-- A place told by its wording alone. -/
  | named (wording : String)
  deriving DecidableEq

/-- The word for an end of a step within a sentence. -/
def CheckpointKind.word : CheckpointKind → String
  | reader => "reader"
  | writer => "writer"

/-- An instance and a step name in brackets. -/
def stepOf (id : InstanceId) (step : String) : String := "(" ++ id.text ++ ", " ++ step ++ ")"

/-- The wording of a place. -/
def BlobPlace.text : BlobPlace → String
  | parametersOf id => "job execution " ++ id.text ++ " parameters"
  | userDataOf id => "step execution " ++ id.text ++ " persistent data"
  | checkpointRow key => "checkpoint " ++ key
  | jobStatusRow row => "job status " ++ integer row
  | stepStatusRow row => "step status " ++ integer row
  | tokenOf id step kind => "checkpoint pair " ++ stepOf id step ++ " " ++ kind.word
  | named wording => wording

/-- A record that holds a status and allows only some moves of it. -/
inductive StatusHolder where
  | job (id : InstanceId)
  | step (id : InstanceId) (name : String)
  deriving DecidableEq

/-- The wording of a status holder. -/
def StatusHolder.text : StatusHolder → String
  | job id => "job status " ++ id.text
  | step id name => "step status " ++ stepOf id name

/-- What an error is about. -/
inductive Cause where
  /-- A remark without further structure. -/
  | remark (text : String)
  | jobInstance (id : InstanceId)
  | jobExecution (id : ExecutionId)
  | stepExecution (id : StepId)
  | jobStatus (id : InstanceId)
  | jobStatusOf (id : ExecutionId)
  | stepStatus (id : StepId)
  | namedStepStatus (id : InstanceId) (step : String)
  | checkpointPair (id : InstanceId) (step : String)
  /-- Of the two rows of a pair only one is there. -/
  | halfPair (id : InstanceId) (step : String)
  /-- The row of one end of a pair is missing. -/
  | missingRow (id : InstanceId) (step : String) (kind : CheckpointKind)
  /-- No number is left for a new record. -/
  | idsExhausted
  | startCountOverflow (id : StepId)
  | stepName (fault : StepNameFault)
  /-- A status holder was to leave `ABANDONED`. -/
  | leavesAbandoned (holder : StatusHolder) (target : BatchStatus)
  /-- A step status was to be replaced by one that is kept under another key. -/
  | otherKey (id : InstanceId) (step : String) (current given : StepId)
  /-- The execution that a step belongs to has ended. -/
  | frozen (step : StepId) (execution : Int) (status : BatchStatus)
  | metricsOverflow (root : InstanceId) (step : String)
  /-- An identifier is too large for a row number. -/
  | idRange (number : Nat)
  /-- A count is too large for a column. -/
  | counterRange (count : Nat)
  /-- A row number is no identifier. -/
  | rowId (row : Int)
  | negativeCounter (count : Int)
  | unknownStatus (label : String)
  | blob (place : BlobPlace) (fault : BlobFault)
  /-- A blob that was to be written. -/
  | unwritten (fault : BlobFault)
  /-- A status row holds the record of another instance. -/
  | otherInstance (row : Int) (held : InstanceId)
  /-- A status row holds the record of another step. -/
  | otherStep (row : Int) (held : StepId)
  /-- The tables did not answer a query of the named operation. -/
  | query (operation : String)
  | schemaVersion (version : Int)
  | poolSize
  | emptyPath
  | directory (path : String)
  /-- A directory could not be made. -/
  | unreachable (path : String)
  deriving DecidableEq

/-- The wording of a cause. -/
def Cause.text : Cause → String
  | remark text => text
  | jobInstance id => "job instance " ++ id.text
  | jobExecution id => "job execution " ++ id.text
  | stepExecution id => "step execution " ++ id.text
  | jobStatus id => "job status " ++ id.text
  | jobStatusOf id => "job status for execution " ++ id.text
  | stepStatus id => "step status " ++ id.text
  | namedStepStatus id step => "step status " ++ stepOf id step
  | checkpointPair id step => "checkpoint pair " ++ stepOf id step
  | halfPair id step => "checkpoint pair " ++ stepOf id step ++ " has only one of its rows"
  | missingRow id step kind =>
    "checkpoint pair " ++ stepOf id step ++ " is missing its " ++ kind.word ++ " row"
  | idsExhausted => "ledger id space exhausted"
  | startCountOverflow id => "step status " ++ id.text ++ " start count overflow"
  | stepName fault => fault.message
  | leavesAbandoned holder target =>
    holder.text ++ ": ABANDONED cannot move to " ++ target.label
  | otherKey id step current given =>
    "step status " ++ stepOf id step ++ " is keyed by " ++ current.text ++ ", not " ++ given.text
  | frozen step execution status =>
    "step execution " ++ step.text ++ " belongs to job execution " ++ integer execution ++
      " which is " ++ status.label
  | metricsOverflow root step => "partition metrics for " ++ stepOf root step ++ " overflow"
  | idRange number => "id " ++ number.repr ++ " exceeds sqlite range"
  | counterRange count => "step counter " ++ count.repr ++ " exceeds sqlite range"
  | rowId row => "invalid row id: " ++ integer row
  | negativeCounter count => "negative step counter: " ++ integer count
  | unknownStatus label => "unknown batch status: " ++ label
  | blob place fault => place.text ++ ": " ++ fault.message
  | unwritten fault => fault.message
  | otherInstance row held =>
    "job status " ++ integer row ++ " holds the record of instance " ++ held.text
  | otherStep row held => "step status " ++ integer row ++ " holds the record keyed " ++ held.text
  | query operation => operation
  | schemaVersion version => "unsupported schema version: " ++ integer version
  | poolSize => "read_pool_size must be between 1 and 64"
  | emptyPath => "store path must not be empty"
  | directory path => "store path " ++ path ++ " is a directory"
  | unreachable path => path

namespace LedgerError

/-- What a caller can conclude from an error of the ledger. -/
inductive Kind where
  /-- The tables do not answer now. -/
  | storeUnavailable
  | notFound
  | alreadyExists
  /-- What is stored is damaged. -/
  | decodeFailure
  | noSuchExecution
  /-- The record does not allow the change. -/
  | invalidTransition
  /-- The request itself is wrong. -/
  | invalid
  deriving DecidableEq, Repr

/-- The wording of a kind. -/
def Kind.text : Kind → String
  | storeUnavailable => "ledger store unavailable"
  | notFound => "ledger record not found"
  | alreadyExists => "ledger record already exists"
  | decodeFailure => "ledger blob decode failure"
  | noSuchExecution => "no such execution"
  | invalidTransition => "ledger transition rejected"
  | invalid => "ledger request invalid"

end LedgerError

/-- An error of the ledger. -/
structure LedgerError where
  kind : LedgerError.Kind
  cause : Cause
  deriving DecidableEq

/-- The wording of an error. -/
def LedgerError.message (e : LedgerError) : String := e.kind.text ++ ": " ++ e.cause.text

end JobLedger
