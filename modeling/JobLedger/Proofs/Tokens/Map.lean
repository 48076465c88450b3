import JobLedger.Operation
import JobLedger.Proofs.Action

/-!
# Restart tokens as a map

What a ledger keeps for steps is a map from instances and step names to pairs of tokens. It is empty
at first, and every operation on restart tokens is said here as one on the map: what it answers, and
which map it leaves. A store may have no room for a token that is too long; which tokens it has room
for is a parameter.
-/

namespace JobLedger

open JobLedger.Action Text

/-- The pairs of tokens that are kept, by instance and step name. -/
abbrev TokenMap := InstanceId → String → Option CheckpointPair

namespace TokenMap

/-- The map without pairs. -/
def empty : TokenMap := fun _ _ => none

/-- The map with a pair put under a step. -/
def put (id : InstanceId) (step : String) (pair : CheckpointPair) (map : TokenMap) : TokenMap :=
  fun other name => if other = id ∧ name = step then some pair else map other name

/-- The map without the pairs of some instances. -/
def drop (goes : InstanceId → Bool) (map : TokenMap) : TokenMap :=
  fun id step => if goes id then none else map id step

/-- The pair of a step, which is missing otherwise. -/
def find (id : InstanceId) (step : String) (map : TokenMap) : Except LedgerError CheckpointPair :=
  match map id step with
  | some pair => .ok pair
  | none => .error ⟨.notFound, .checkpointPair id step⟩

/-- Adds a pair without tokens where there is none. -/
def add (id : InstanceId) (step : String) (map : TokenMap) :
    Except LedgerError (Unit × TokenMap) :=
  match map id step with
  | some _ => .error ⟨.alreadyExists, .checkpointPair id step⟩
  | none => .ok ((), map.put id step .empty)

/-- The pair of a step, with one without tokens added where there is none. -/
def findOrAdd (id : InstanceId) (step : String) (map : TokenMap) :
    Except LedgerError (CheckpointPair × TokenMap) :=
  match map id step with
  | some pair => .ok (pair, map)
  | none => .ok (.empty, map.put id step .empty)

variable (fits : Option Octets → Bool)

/-- Replaces the pair of a step where there is one. -/
def replace (id : InstanceId) (step : String) (pair : CheckpointPair) (map : TokenMap) :
    Except LedgerError (Unit × TokenMap) :=
  if fits pair.reader && fits pair.writer then
    match map id step with
    | some _ => .ok ((), map.put id step pair)
    | none => .error ⟨.notFound, .checkpointPair id step⟩
  else .error ⟨.invalid, .unwritten (.payload .tooLong)⟩

/-- Creates the pair of a step. -/
def create (id : InstanceId) (step : String) : Action LedgerError TokenMap Unit := do
  ensureStepName step
  change (add id step)

/-- The pair of a step. -/
def get (id : InstanceId) (step : String) : Action LedgerError TokenMap CheckpointPair := do
  ensureStepName step
  look (find id step)

/-- The pair of a step, which is created where it is missing. -/
def ensure (id : InstanceId) (step : String) : Action LedgerError TokenMap CheckpointPair := do
  ensureStepName step
  change (findOrAdd id step)

/-- Replaces the pair of a step. -/
def update (id : InstanceId) (step : String) (pair : CheckpointPair) :
    Action LedgerError TokenMap Unit := do
  ensureStepName step
  change (replace fits id step pair)

/-- An operation on restart tokens, on the map. -/
def serve : (operation : Operation) → Option (Action LedgerError TokenMap operation.Answer)
  | .call (.createPair id step) => some (create id step)
  | .call (.findPair id step) => some (look fun map => .ok (map id step))
  | .call (.updatePair id step pair) => some (change (replace fits id step pair))
  | .createCheckpoint id step => some (create id step)
  | .ensureCheckpoint id step => some (ensure id step)
  | .getCheckpoint id step => some (get id step)
  | .updateCheckpoint id step pair => some (update fits id step pair)
  | .getDecoded reader writer id step => some do
    let pair ← get id step
    let read ← ofExcept (Checkpoint.decodeToken reader (.tokenOf id step .reader) pair.reader)
    let written ← ofExcept (Checkpoint.decodeToken writer (.tokenOf id step .writer) pair.writer)
    answer (read, written)
  | .updateEncoded reader writer id step read written => some do
    let readerToken ← ofExcept (Checkpoint.encodeToken reader (.tokenOf id step .reader) read)
    let writerToken ← ofExcept (Checkpoint.encodeToken writer (.tokenOf id step .writer) written)
    update fits id step ⟨readerToken, writerToken⟩
  | _ => none

/-- The map after an operation, where `tagged` tells the instances of a tag. Beside the operations on
restart tokens only a purge makes a difference. -/
def next (tagged : String → InstanceId → Bool) (map : TokenMap) (operation : Operation) : TokenMap :=
  match operation with
  | .call (.purge tag) => map.drop (tagged tag)
  | operation =>
    match serve fits operation with
    | some x => (x map).state
    | none => map

/-- The error of a pair of which only one row was found. -/
def IsHalf (e : LedgerError) : Prop :=
  (∃ id step, e.cause = .halfPair id step) ∨ ∃ id step kind, e.cause = .missingRow id step kind

/-- The instances of a tag, as a store tells them. -/
def tagged {σ : Type} [LedgerStore σ] (s : σ) (tag : String) (id : InstanceId) : Bool :=
  match (perform (.tagOfInstance id) s).answer with
  | .ok found => found = tag
  | .error _ => false

/-- Through a sequence of operations a store answers as the map does. -/
def Explains {σ : Type} [LedgerStore σ] (map : TokenMap) (s : σ) : List Operation → Prop
  | [] => True
  | operation :: rest =>
    (∀ x, serve fits operation = some x → (operation.perform s).answer = (x map).answer ∧
      ∀ e, (operation.perform s).answer = .error e → ¬ IsHalf e) ∧
    Explains (map.next fits (tagged s) operation) (operation.next s) rest

end TokenMap

end JobLedger
