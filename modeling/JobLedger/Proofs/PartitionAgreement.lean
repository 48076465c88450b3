import JobLedger.Proofs.Agreement
import JobLedger.Proofs.Durable.Partitions
import JobLedger.Proofs.Files.Carrying

/-!
# What the two stores count as partitions

Both stores are asked for the counts of the partitions of a step after the same calls, whatever names
instances were given. The store in memory counts what has a name that belongs to the step. The store
in a file leaves out the names with a zero in front of the root, which its pattern does not match,
and nothing else: where there are no such names the two stores give the same counts.
-/

namespace JobLedger

namespace Call

/-- The state after calls, whether they succeed or not. -/
def after {σ : Type} [LedgerStore σ] (state : σ) (calls : List Call) : σ :=
  calls.foldl (fun state call => (perform call state).state) state

/-- Calls fit into a database, each of them and what it leaves. -/
def AllFit (m : Memory) : List Call → Prop
  | [] => True
  | call :: rest =>
    call.Fits ∧ (perform call m).state.Storable ∧ AllFit (perform call m).state rest

end Call

/-- The counts of the step executions whose instances have names of a kind. -/
def Memory.countsUnder (m : Memory) (named : String → Bool) : List StepMetrics :=
  (m.ownedUnder named).map fun entry => entry.1.1.metrics

namespace OpenLedger.Carries

open Call

variable {l : OpenLedger} {m : Memory} (h : l.Carries m)

include h

/-- After a call that fits, the session carries the ledger after the call. -/
theorem carries_perform {call : Call} (hfits : call.Fits)
    (hnext : (perform call m).state.Storable) :
    (perform call l).state.Carries (perform call m).state := by
  by_cases hmetrics : ∃ root step, call = .partitionMetrics root step
  · obtain ⟨root, step, rfl⟩ := hmetrics
    exact h.carries_partitionMetrics root step
  · exact (h.agrees call (fun root step heq => hmetrics ⟨root, step, heq⟩) hfits hnext).2

/-- After calls that fit, the session carries the ledger after the same calls. -/
theorem carries_after {calls : List Call} (hcalls : AllFit m calls) :
    (after l calls).Carries (after m calls) := by
  induction calls generalizing l m with
  | nil => exact h
  | cons call rest ih =>
    obtain ⟨hfits, hnext, hrest⟩ := hcalls
    exact ih (h.carries_perform hfits hnext) hrest

theorem partitionMetrics_eq_countsUnder (root : InstanceId) {step : String}
    (hstep : stepNameFault? step = none) :
    (perform (.partitionMetrics root step) m).answer =
        .ok (m.countsUnder fun name => PartitionName.belongsTo name root step) ∧
      (perform (.partitionMetrics root step) l).answer =
        .ok (m.countsUnder fun name =>
          PartitionName.belongsTo name root step && !PartitionName.isPadded name) :=
  ⟨congrArg Except.ok (Memory.partitionMetrics_eq_ownedUnder h.wellFormed root step),
    h.answer_partitionMetrics (Memory.databasePartitionMetrics_eq_ownedUnder hstep)⟩

/-- Where no name that belongs to the step has a zero in front of the root, both give the same. -/
theorem partitionMetrics_eq_of_unpadded {root : InstanceId} {step : String}
    (hstep : stepNameFault? step = none)
    (hnames : ∀ i ∈ m.instances, PartitionName.belongsTo i.name root step = true →
      PartitionName.isPadded i.name = false) :
    (perform (.partitionMetrics root step) l).answer =
      (perform (.partitionMetrics root step) m).answer :=
  h.answer_partitionMetrics
    (Memory.databasePartitionMetrics_eq_of_unpadded h.wellFormed hstep hnames)

end OpenLedger.Carries

/-- After the same calls, the store in memory counts the instances whose names belong to a step, and
a store in a new file those of them that have no zero in front of the root. They give the same where
that makes no difference. -/
theorem countsPartitions_after {t : FileTree} {settings : StoreSettings} {place : Place}
    {l : OpenLedger} (hl : l.OpenedAt t settings place) {calls : List Call}
    (hcalls : Call.AllFit Memory.empty calls) (root : InstanceId) {step : String}
    (hstep : stepNameFault? step = none) :
    let m := Call.after Memory.empty calls
    let memory := (perform (.partitionMetrics root step) m).answer
    let stored := (perform (.partitionMetrics root step) (Call.after l calls)).answer
    memory = .ok (m.countsUnder fun name => PartitionName.belongsTo name root step) ∧
      stored = .ok (m.countsUnder fun name =>
        PartitionName.belongsTo name root step && !PartitionName.isPadded name) ∧
      ((∀ i ∈ m.instances, PartitionName.belongsTo i.name root step = true →
        PartitionName.isPadded i.name = false) → stored = memory) := by
  intro m memory stored
  have hcarries := hl.carries.carries_after hcalls
  obtain ⟨hmemory, hstored⟩ := hcarries.partitionMetrics_eq_countsUnder root hstep
  exact ⟨hmemory, hstored, hcarries.partitionMetrics_eq_of_unpadded hstep⟩

/-- A partition whose index has zeros in front is counted by both stores, and neither counts an
instance whose name only begins like that of a partition. -/
theorem countsPartitions_atStart :
    let id : InstanceId := ⟨1, by decide, by decide⟩
    let calls := [.createInstance ":1:a:007" "nightly" none, .createInstance ":1:ab:0" "nightly" none,
      .createExecution id .empty .starting ⟨1⟩,
      .createExecution ⟨2, by decide, by decide⟩ .empty .starting ⟨1⟩,
      .createStep ⟨1, by decide, by decide⟩ "a" (Counters.const 7) ⟨5⟩,
      .createStep ⟨2, by decide, by decide⟩ "a" (Counters.const 9) ⟨5⟩]
    Call.AllFit Memory.empty calls ∧ stepNameFault? "a" = none ∧
      (perform (.partitionMetrics id "a") (Call.after OpenLedger.atStart calls)).answer =
        .ok [Counters.const 7] := by
  intro id calls
  have hid : (id.number : Int) < signedLimit := by decide
  have hcalls : Call.AllFit Memory.empty calls :=
    ⟨trivial, by decide +kernel, trivial, by decide +kernel,
      ⟨hid, by decide +kernel⟩, by decide +kernel, ⟨by decide, by decide +kernel⟩, by decide +kernel,
      ⟨hid, by decide +kernel⟩, by decide +kernel, ⟨by decide, by decide +kernel⟩, by decide +kernel,
      trivial⟩
  have hstep : stepNameFault? "a" = none := by decide
  obtain ⟨-, hstored, -⟩ :=
    countsPartitions_after OpenLedger.openedAt_atStart hcalls id hstep
  refine ⟨hcalls, hstep, hstored.trans ?_⟩
  have hcounts : (Call.after Memory.empty calls).countsUnder (fun name =>
      PartitionName.belongsTo name id "a" && !PartitionName.isPadded name) = [Counters.const 7] := by
    decide +kernel
  rw [hcounts]

/-- An instance whose name has a zero in front of the root is counted in memory, and not in a file. -/
theorem partitionMetrics_padded :
    let id : InstanceId := ⟨1, by decide, by decide⟩
    let calls := [.createInstance ":01:a:0" "nightly" none,
      .createExecution id .empty .starting ⟨1⟩,
      .createStep ⟨1, by decide, by decide⟩ "a" (Counters.const 7) ⟨5⟩]
    Call.AllFit Memory.empty calls ∧ PartitionName.belongsTo ":01:a:0" id "a" = true ∧
      (perform (.partitionMetrics id "a") (Call.after Memory.empty calls)).answer =
        .ok [Counters.const 7] ∧
      (perform (.partitionMetrics id "a") (Call.after OpenLedger.atStart calls)).answer = .ok [] := by
  intro id calls
  have hid : (id.number : Int) < signedLimit := by decide
  have hcalls : Call.AllFit Memory.empty calls :=
    ⟨trivial, by decide +kernel, ⟨hid, by decide +kernel⟩, by decide +kernel,
      ⟨hid, by decide +kernel⟩, by decide +kernel, trivial⟩
  have hstep : stepNameFault? "a" = none := by decide
  have hbelongs : PartitionName.belongsTo ":01:a:0" id "a" = true := by decide +kernel
  obtain ⟨hmemory, hstored⟩ := (OpenLedger.openedAt_atStart.carries.carries_after
    hcalls).partitionMetrics_eq_countsUnder id hstep
  have hall : (Call.after Memory.empty calls).countsUnder (fun name =>
      PartitionName.belongsTo name id "a") = [Counters.const 7] := by decide +kernel
  have hnone : (Call.after Memory.empty calls).countsUnder (fun name =>
      PartitionName.belongsTo name id "a" && !PartitionName.isPadded name) = [] := by decide +kernel
  refine ⟨hcalls, hbelongs, hmemory.trans ?_, hstored.trans ?_⟩
  · rw [hall]
  · rw [hnone]

end JobLedger
