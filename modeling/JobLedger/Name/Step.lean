import JobLedger.Text.Utf8

/-!
# Step names

A step name is any nonempty text of at most 512 octets.
-/

namespace JobLedger

/-- The most octets that a step name may have. -/
def stepNameLimit : Nat := 512

/-- Why a text is no step name. -/
inductive StepNameFault where
  | empty
  | tooLong
  deriving DecidableEq, Repr

/-- The wording of a fault. -/
def StepNameFault.message : StepNameFault → String
  | empty => "step name must not be empty"
  | tooLong => s!"step name exceeds {stepNameLimit} bytes"

/-- What is wrong with a step name, if anything. -/
def stepNameFault? (name : String) : Option StepNameFault :=
  if name.utf8ByteSize = 0 then some .empty
  else if stepNameLimit < name.utf8ByteSize then some .tooLong
  else none

end JobLedger
