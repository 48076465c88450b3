import JobLedger.Id
import JobLedger.Record.Progress
import JobLedger.Text.Cut
import JobLedger.Text.Decimal

/-!
# Checkpoint keys

A restart token is kept under a key: the instance, the step name and the end of the step, parted by
commas. The step name may hold commas of its own, since the first comma of a key ends the instance
and the last one begins the end of the step. A key is read back with any number of zeros before the
instance.
-/

namespace JobLedger

open Text

/-- What a restart token belongs to. -/
structure CheckpointKey where
  instanceId : InstanceId
  stepName : String
  kind : CheckpointKind
  deriving DecidableEq

/-- Why a text is no checkpoint key. -/
inductive CheckpointKeyFault where
  /-- The whole text has fewer than two commas. -/
  | missingSeparator (whole : String)
  /-- The text before the first comma is no instance. -/
  | invalidInstance (text : String)
  /-- The text behind the last comma is no end of a step. -/
  | invalidKind (text : String)
  deriving DecidableEq

/-- The wording of a fault. -/
def CheckpointKeyFault.message : CheckpointKeyFault → String
  | missingSeparator whole => "checkpoint key is missing a separator: " ++ whole
  | invalidInstance text => "checkpoint key has an invalid job instance id: " ++ text
  | invalidKind text => "checkpoint key has an invalid type: " ++ text

namespace CheckpointKey

/-- The beginning of every key of an instance, and of no other key. -/
def instancePrefix (id : InstanceId) : String := id.text ++ ","

/-- The text of a key. -/
def encode (key : CheckpointKey) : String :=
  instancePrefix key.instanceId ++ (key.stepName ++ ("," ++ key.kind.label))

/-- The key that a text writes. -/
def parse (text : String) : Except CheckpointKeyFault CheckpointKey :=
  match cutFirst ',' text.toList with
  | none => .error (.missingSeparator text)
  | some (id, rest) =>
    match cutLast ',' rest with
    | none => .error (.missingSeparator text)
    | some (step, label) =>
      match (decimal? id).bind Id.ofNat? with
      | none => .error (.invalidInstance (String.ofList id))
      | some instanceId =>
        match CheckpointKind.ofLabel? (String.ofList label) with
        | none => .error (.invalidKind (String.ofList label))
        | some kind => .ok ⟨instanceId, String.ofList step, kind⟩

/-- The keys of the two tokens of a step. -/
def ofPair (id : InstanceId) (step : String) (kind : CheckpointKind) : CheckpointKey :=
  ⟨id, step, kind⟩

end CheckpointKey

end JobLedger
