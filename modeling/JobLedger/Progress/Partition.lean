import JobLedger.Call

/-!
# Partitioned steps

A step may be split into partitions, each of which is a job instance of its own with a name that
tells what it belongs to. The counts of all partitions are added up and written to the step
execution that stands for the whole.
-/

namespace JobLedger.Partition

open JobLedger.Action

variable {σ : Type} [LedgerStore σ]

/-- The counts of all partitions of a step of the instance of an execution, added up. -/
def totals (root : ExecutionId) (step : String) : Action LedgerError σ StepMetrics := do
  ensureStepName step
  let id ← perform (.instanceOf root)
  let rows ← perform (.partitionMetrics id step)
  let sum ← ofOption ⟨.invalid, .metricsOverflow id step⟩ (StepMetrics.sum? rows)
  report (.partitionMetricsSummed id step rows.length)
  answer sum

/-- Writes the added counts of all partitions of a step to a step execution and ends it. -/
def aggregate (root : ExecutionId) (step : String) (parent : StepId) (time : Timestamp)
    (final : Option (BatchStatus × String)) : Action LedgerError σ StepMetrics := do
  let sum ← totals root step
  let found ← perform (.findStep parent)
  let row ← ofOption ⟨.noSuchExecution, .stepExecution parent⟩ found
  perform (.updateStep parent
    ⟨sum, row.userData, some time, final.map Prod.fst, final.map Prod.snd⟩)
  report (.partitionMetricsAggregated root step parent sum.write)
  answer sum

/-- Creates the partitions of a step that have the given indices. -/
def createEach (root : InstanceId) (step appTag : String) :
    List UInt32 → Action LedgerError σ (List JobInstance)
  | [] => answer []
  | index :: rest => do
    let i ← perform (.createPartition ⟨root, step, index⟩ appTag)
    let others ← createEach root step appTag rest
    answer (i :: others)

/-- Creates the first `count` partitions of a step. -/
def create (root : InstanceId) (step : String) (count : UInt32) (appTag : String) :
    Action LedgerError σ (List JobInstance) := do
  ensureStepName step
  createEach root step appTag ((List.range count.toNat).map UInt32.ofNat)

end JobLedger.Partition
