import JobLedger.Name.Partition
import JobLedger.Text.Like

/-!
# Patterns for partition names

The names of the partitions of a step are looked up by a pattern: the beginning of such names, taken
literally, followed by anything.
-/

namespace JobLedger

open Text

/-- A text as a pattern that matches it literally. -/
def escapePattern (text : String) : String := String.ofList (Like.escape text.toList)

/-- The pattern for names of partitions of a step. -/
def PartitionName.pattern (root : InstanceId) (step : String) : String :=
  escapePattern (stem root step) ++ "%"

end JobLedger
