import JobLedger.Id
import JobLedger.Text.Cut
import JobLedger.Text.Decimal

/-!
# Partition names

A partition of a step is a job instance of its own. Its name holds the root instance, the step name
and the index of the partition, each behind a colon. The step name may hold colons of its own, since
the root ends at the second colon of a name and the index begins behind the last one.
-/

namespace JobLedger

open Text

/-- The name of a partition of a step. -/
structure PartitionName where
  /-- The instance whose step is partitioned. -/
  root : InstanceId
  stepName : String
  index : UInt32
  deriving DecidableEq

namespace PartitionName

/-- The beginning of the name of every partition of a step. -/
def stem (root : InstanceId) (step : String) : String :=
  ":" ++ (root.text ++ (":" ++ (step ++ ":")))

/-- The text of a partition name. -/
def encode (name : PartitionName) : String :=
  stem name.root name.stepName ++ name.index.toNat.repr

/-- The partition index that a run of digits writes. -/
def index? (digits : List Char) : Option UInt32 :=
  (decimal? digits).bind fun n => if n < UInt32.size then some (UInt32.ofNat n) else none

/-- The partition name that a text writes, with any number of zeros before the two numbers. -/
def parse? (text : String) : Option PartitionName :=
  match text.toList with
  | ':' :: rest => do
    let (root, rest) ← cutFirst ':' rest
    let (step, index) ← cutLast ':' rest
    let root ← (decimal? root).bind Id.ofNat?
    let index ← index? index
    some ⟨root, String.ofList step, index⟩
  | _ => none

/-- A text names a partition of a given step. -/
def belongsTo (text : String) (root : InstanceId) (step : String) : Bool :=
  match parse? text with
  | some name => name.root = root ∧ name.stepName = step
  | none => false

end PartitionName

end JobLedger
