import JobLedger.Call
import JobLedger.Codec

/-!
# Restart tokens

The restart tokens of a step are kept in pairs, under the instance and the name of the step. They are
strings of octets; with a codec for each end they are values.
-/

namespace JobLedger.Checkpoint

open JobLedger.Action Text

variable {σ : Type} [LedgerStore σ] {α β : Type}

/-- Creates the pair of a step, without tokens. -/
def create (id : InstanceId) (step : String) : Action LedgerError σ Unit := do
  ensureStepName step
  perform (.createPair id step)
  report (.checkpointPairCreated id step)

/-- The tokens of a step. -/
def get (id : InstanceId) (step : String) : Action LedgerError σ CheckpointPair := do
  ensureStepName step
  let found ← perform (.findPair id step)
  ofOption ⟨.notFound, .checkpointPair id step⟩ found

/-- The tokens of a step, whose pair is created where it is missing. -/
def ensure (id : InstanceId) (step : String) : Action LedgerError σ CheckpointPair := do
  ensureStepName step
  match ← perform (.findPair id step) with
  | some pair => answer pair
  | none =>
    orElse (create id step) fun e => if e.kind = .alreadyExists then answer () else fail e
    get id step

/-- Replaces the tokens of a step. -/
def update (id : InstanceId) (step : String) (pair : CheckpointPair) :
    Action LedgerError σ Unit := do
  ensureStepName step
  perform (.updatePair id step pair)
  report (.checkpointPairUpdated id step pair.reader.isSome pair.writer.isSome)

/-- The value of a token, if there is one. -/
def decodeToken (codec : Codec α) (place : BlobPlace) :
    Option Octets → Except LedgerError (Option α)
  | none => .ok none
  | some token =>
    match codec.decode token with
    | .ok value => .ok (some value)
    | .error fault => .error ⟨.decodeFailure, .blob place fault⟩

/-- The token of a value, if there is one. -/
def encodeToken (codec : Codec α) (place : BlobPlace) :
    Option α → Except LedgerError (Option Octets)
  | none => .ok none
  | some value =>
    match codec.encode value with
    | .ok token => .ok (some token)
    | .error fault => .error ⟨.invalid, .blob place fault⟩

/-- The values of the tokens of a step. -/
def getDecoded (reader : Codec α) (writer : Codec β) (id : InstanceId) (step : String) :
    Action LedgerError σ (Option α × Option β) := do
  let pair ← get id step
  let read ← ofExcept (decodeToken reader (.tokenOf id step .reader) pair.reader)
  let written ← ofExcept (decodeToken writer (.tokenOf id step .writer) pair.writer)
  answer (read, written)

/-- Replaces the tokens of a step by those of values. -/
def updateEncoded (reader : Codec α) (writer : Codec β) (id : InstanceId) (step : String)
    (read : Option α) (written : Option β) : Action LedgerError σ Unit := do
  let readerToken ← ofExcept (encodeToken reader (.tokenOf id step .reader) read)
  let writerToken ← ofExcept (encodeToken writer (.tokenOf id step .writer) written)
  update id step ⟨readerToken, writerToken⟩

end JobLedger.Checkpoint
