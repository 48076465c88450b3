import JobLedger.Error

/-!
# Errors of the durable store

A durable store distinguishes more kinds of errors than the ledger as a whole. Each of its kinds is
one kind of the ledger, and each kind of the ledger has one of its kinds, with the cause kept.
-/

namespace JobLedger

namespace StoreError

/-- The kinds of errors of a durable store. -/
inductive Kind where
  /-- The file system refused. -/
  | io
  /-- A statement failed. -/
  | db
  /-- Someone else holds the lock. -/
  | busy
  /-- A row or a blob is damaged. -/
  | corrupt
  | versionMismatch
  /-- The request did not reach the tables. -/
  | invalid
  | conflict
  | missing
  | missingExecution
  /-- A rule of the ledger forbids the change. -/
  | rejected
  deriving DecidableEq, Repr

/-- The wording of a kind. -/
def Kind.text : Kind → String
  | io => "sqlite store io error"
  | db => "sqlite store db error"
  | busy => "sqlite store busy"
  | corrupt => "sqlite store corruption"
  | versionMismatch => "sqlite store version mismatch"
  | invalid => "sqlite store invalid request"
  | conflict => "sqlite store conflict"
  | missing => "sqlite store record missing"
  | missingExecution => "sqlite store execution missing"
  | rejected => "sqlite store change rejected"

/-- What a kind of error means for the ledger. -/
def Kind.toLedger : Kind → LedgerError.Kind
  | io | db | busy | versionMismatch => .storeUnavailable
  | corrupt => .decodeFailure
  | invalid => .invalid
  | conflict => .alreadyExists
  | missing => .notFound
  | missingExecution => .noSuchExecution
  | rejected => .invalidTransition

/-- The kind of error of a durable store that stands for a kind of the ledger. -/
def Kind.ofLedger : LedgerError.Kind → Kind
  | .storeUnavailable => db
  | .notFound => missing
  | .alreadyExists => conflict
  | .decodeFailure => corrupt
  | .noSuchExecution => missingExecution
  | .invalidTransition => rejected
  | .invalid => invalid

end StoreError

/-- An error of a durable store. -/
structure StoreError where
  kind : StoreError.Kind
  cause : Cause
  deriving DecidableEq

namespace StoreError

/-- The wording of an error. -/
def message (e : StoreError) : String := e.kind.text ++ ": " ++ e.cause.text

/-- The error as one of the ledger. -/
def toLedger (e : StoreError) : LedgerError := ⟨e.kind.toLedger, e.cause⟩

/-- Only damage is told as a failure to decode. -/
theorem eq_corrupt_of_toLedger {e : StoreError} {cause : Cause}
    (h : e.toLedger = ⟨.decodeFailure, cause⟩) : e = ⟨.corrupt, cause⟩ := by
  obtain ⟨kind, told⟩ := e
  injection h with hkind hcause
  cases kind with
  | corrupt => rw [show told = cause from hcause]
  | _ => cases hkind

/-- The error of the ledger as one of a durable store. -/
def ofLedger (e : LedgerError) : StoreError := ⟨.ofLedger e.kind, e.cause⟩

/-- The tables did not answer a statement of the named operation. -/
def failed (operation : String) : StoreError := ⟨.db, .query operation⟩

/-- A statement of the named operation ran into a lock. -/
def locked (operation : String) : StoreError := ⟨.busy, .query operation⟩

end StoreError

end JobLedger
