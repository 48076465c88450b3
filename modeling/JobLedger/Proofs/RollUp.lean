import JobLedger.Proofs.Durable.Partitions
import JobLedger.Proofs.Runs

/-!
# Counts of partitions

The counts that a store gives for the partitions of a step follow what was created on it. They are
the counts of the step executions that are there of instances that are there and were created as
partitions of the step, each once and in order; no other name takes part, however it looks. Names
with a colon in front are to be given to partitions only.
-/

namespace JobLedger

open JobLedger.Action

/-- The row of a step execution is in a store, and so is its instance, which was created as a
partition of a step. -/
def IsPartitionStep {σ : Type} [LedgerStore σ] (made : Creations) (s : σ) (root : InstanceId)
    (step : String) (row : StepExecution) : Prop :=
  (perform (.findStep row.id) s).answer = .ok (some row) ∧ ∃ execution owner index,
    (perform (.findExecution row.executionId) s).answer = .ok (some execution) ∧
      (perform (.findInstance execution.instanceId) s).answer = .ok (some owner) ∧
        (owner, some ⟨root, step, index⟩) ∈ made

/-- A store gives the counts of the partitions that were created, in the order of their step
executions. -/
def RollsUp {σ : Type} [LedgerStore σ] (made : Creations) (s : σ) : Prop :=
  ∀ root step, stepNameFault? step = none → ∃ rows : List StepExecution,
    (perform (.partitionMetrics root step) s).answer = .ok (rows.map StepExecution.metrics) ∧
      rows.Pairwise (fun a b => a.id.number < b.id.number) ∧
        ∀ row, row ∈ rows ↔ IsPartitionStep made s root step row

/-- Where names with a colon in front are given to partitions only, a run of operations leaves a
store that gives the counts of what was created. -/
def Operation.RollsUpCreated {σ : Type} [LedgerStore σ] (s : σ) (operations : List Operation) :
    Prop :=
  (instancesMade s operations).NamesPartitions →
    RollsUp (instancesMade s operations) (run s operations)

/-- A store carries a ledger that follows what was created, if names with a colon in front were
given to partitions only. -/
def BearsCreated {σ : Type} (Carries : σ → Memory → Prop) (s : Recorded σ) : Prop :=
  ∃ m, Carries s.store m ∧ (s.made.NamesPartitions → m.FollowsCreations s.made)

section Carried

variable {σ : Type} [LedgerStore σ] {Carries : σ → Memory → Prop}
  (hcarries : CarriesLedger Carries)

include hcarries

/-- A call leads from a ledger that follows what was created to one that does so. -/
theorem keeps_bearsCreated (call : Call) :
    Keeps (BearsCreated Carries) (perform call : Action LedgerError (Recorded σ) call.Answer) := by
  rintro ⟨s, made⟩ ⟨m, hm, hmade⟩
  change BearsCreated Carries
    ⟨(perform call s).state, made ++ call.instanceMade (perform call s).answer⟩
  cases hanswer : (perform call s).answer with
  | error e =>
    rw [call.instanceMade_error, List.append_nil]
    exact ⟨m, hcarries.failed call hm hanswer, hmade⟩
  | ok a =>
    by_cases hmetrics : ∃ root step, call = .partitionMetrics root step
    · obtain ⟨root, step, rfl⟩ := hmetrics
      have hnext := (hcarries.cases (.partitionMetrics root step) hm).elim id id
      change BearsCreated Carries ⟨(perform (.partitionMetrics root step) s).state, made ++ []⟩
      rw [List.append_nil]
      exact ⟨m, hnext, hmade⟩
    · obtain ⟨hsame, hnext⟩ := hcarries.answered call hm
        (fun root step heq => hmetrics ⟨root, step, heq⟩) hanswer
      refine ⟨_, hnext, fun hnames => ?_⟩
      obtain ⟨hbefore, hadded⟩ := List.forall_mem_append.mp hnames
      exact (hmade hbefore).perform (hcarries.wellFormed hm) hsame hadded

/-- A run leads to a ledger that follows what the run created. -/
theorem exists_followsCreations {s : σ} (hs : Carries s Memory.empty) (operations : List Operation)
    (hnames : (Operation.instancesMade s operations).NamesPartitions) :
    ∃ m, Carries (Operation.run s operations) m ∧
      m.FollowsCreations (Operation.instancesMade s operations) := by
  have hstart : BearsCreated Carries ⟨s, []⟩ := ⟨_, hs, fun _ => .empty⟩
  obtain ⟨m, hm, hmade⟩ :=
    Operation.run_induction (keeps_bearsCreated hcarries) hstart operations
  rw [Recorded.store_run] at hm
  exact ⟨m, hm, hmade hnames⟩

/-- A store that carries a ledger which follows what was created gives the counts of that, if it
gives the counts of the ledger. -/
theorem CarriesLedger.rollsUp {s : σ} {m : Memory} {made : Creations} (hm : Carries s m)
    (hmade : m.FollowsCreations made)
    (hcounts : ∀ root step, stepNameFault? step = none →
      (perform (.partitionMetrics root step) s).answer = .ok (m.partitionMetrics root step)) :
    RollsUp made s := by
  intro root step hstep
  have hformed := hcarries.wellFormed hm
  have hanswer := hcounts root step hstep
  rw [m.partitionMetrics_eq] at hanswer
  refine ⟨m.partitionSteps root step, hanswer, hformed.steps_sorted.filter _, fun row => ?_⟩
  have hrow : m.step? row.id = some row ↔ row ∈ m.steps :=
    hformed.step?_eq_some_iff.trans (and_iff_left rfl)
  rw [Memory.mem_partitionSteps hformed hmade, IsPartitionStep, hcarries.findStep_eq_some_iff hm,
    hrow]
  simp only [hcarries.findExecution_eq_some_iff hm, hcarries.findInstance_eq_some_iff hm]

end Carried

/-- A session counts the partitions of the ledger that it carries. -/
theorem OpenLedger.Carries.partitionMetrics_eq {l : OpenLedger} {m : Memory} (h : l.Carries m)
    (hnames : m.NamesPartitions) {root : InstanceId} {step : String}
    (hstep : stepNameFault? step = none) :
    (perform (.partitionMetrics root step) l).answer = .ok (m.partitionMetrics root step) :=
  h.answer_partitionMetrics (Memory.databasePartitionMetrics_eq h.wellFormed hnames hstep)

/-- After every run of operations on either store, the counts of the partitions of a step are those
of what was created as a partition of the step, and is still there. -/
theorem rollsUp_reached (operations : List Operation) :
    Operation.RollsUpCreated Memory.empty operations ∧
      ∀ {t : FileTree} {settings : StoreSettings} {place : Place} {l : OpenLedger},
        l.OpenedAt t settings place → Operation.RollsUpCreated l operations := by
  constructor
  · intro hnames
    obtain ⟨m, hm, hmade⟩ := exists_followsCreations Memory.carriesLedger
      ⟨rfl, Memory.wellFormed_empty⟩ operations hnames
    refine Memory.carriesLedger.rollsUp hm hmade fun root step _ => ?_
    rw [hm.1]
    rfl
  · intro t settings place l hl hnames
    obtain ⟨m, hm, hmade⟩ := exists_followsCreations OpenLedger.carriesLedger hl.carries operations
      hnames
    exact OpenLedger.carriesLedger.rollsUp hm hmade fun _ _ => hm.partitionMetrics_eq hmade.names

/-- Two steps of an instance have partitions, and their names differ in one letter that is small or
not; the counts of one step are those of its own partition. -/
theorem rollsUp_atStart :
    let nightly : InstanceId := ⟨1, by decide, by decide⟩
    let operations : List Operation := [.call (.createInstance "load" "nightly" none),
      .createPartitions nightly "copy:50%" 1 "nightly",
      .createPartitions nightly "Copy:50%" 1 "nightly",
      .call (.createExecution ⟨2, by decide, by decide⟩ .empty .starting ⟨1⟩),
      .call (.createExecution ⟨3, by decide, by decide⟩ .empty .starting ⟨1⟩),
      .call (.createStep ⟨1, by decide, by decide⟩ "copy:50%" (Counters.const 7) ⟨5⟩),
      .call (.createStep ⟨2, by decide, by decide⟩ "Copy:50%" (Counters.const 9) ⟨5⟩)]
    let made := Operation.instancesMade OpenLedger.atStart operations
    made.NamesPartitions ∧ RollsUp made (Operation.run OpenLedger.atStart operations) ∧
      (perform (.partitionMetrics nightly "copy:50%")
        (Operation.run Memory.empty operations)).answer.toOption = some [Counters.const 7] := by
  intro nightly operations made
  have hnames : made.NamesPartitions := by decide +kernel
  exact ⟨hnames, (rollsUp_reached operations).2 OpenLedger.openedAt_atStart hnames,
    by decide +kernel⟩

end JobLedger
