import JobLedger.Proofs.Durable.Locality
import JobLedger.Proofs.PartitionTotals
import JobLedger.Proofs.Runs
import JobLedger.Proofs.StepReplacement

/-!
# Aggregation of partitions

The totals of the partitions of a step are written to a step execution that stands for the whole.
This touches the one row. Unless the step execution is itself one of a partition of the step, its new
counts do not enter the totals, so that aggregating once more finds the same totals, writes the same
row, and changes nothing.
-/

namespace JobLedger

open JobLedger.Action

/-- The step execution with totals and an end written to it, and a final status if one is given. -/
def StepExecution.aggregated (row : StepExecution) (total : StepMetrics) (time : Timestamp) :
    Option (BatchStatus × String) → StepExecution
  | none => { row with metrics := total, endTime := some time }
  | some (status, exitStatus) =>
    { row with
      metrics := total, endTime := some time, status := status, exitStatus := some exitStatus }

/-- The change that writes totals to a step execution. Its data have to be carried over. -/
def StepExecution.closing (row : StepExecution) (total : StepMetrics) (time : Timestamp)
    (final : Option (BatchStatus × String)) : StepUpdate :=
  ⟨total, row.userData, some time, final.map Prod.fst, final.map Prod.snd⟩

namespace StepExecution

variable (row : StepExecution) (total : StepMetrics) (time : Timestamp)
  (final : Option (BatchStatus × String))

/-- The closing update makes the aggregated row. -/
theorem apply_closing :
    (row.closing total time final).apply row = row.aggregated total time final := by
  cases final <;> rfl

/-- An aggregated row keeps its number. -/
theorem id_aggregated : (row.aggregated total time final).id = row.id := by
  cases final <;> rfl

/-- An aggregated row keeps its execution. -/
theorem executionId_aggregated :
    (row.aggregated total time final).executionId = row.executionId := by
  cases final <;> rfl

/-- The closing update of an aggregated row is that of the row. -/
theorem closing_aggregated :
    (row.aggregated total time final).closing total time final = row.closing total time final := by
  cases final <;> rfl

/-- Aggregating the same total twice makes no difference. -/
theorem aggregated_aggregated : (row.aggregated total time final).aggregated total time final =
    row.aggregated total time final := by
  cases final <;> rfl

end StepExecution

section Statement

variable {σ κ : Type} [LedgerStore σ]

/-- The instance of a step execution has a name that belongs to a step of the instance of an
execution. -/
def IsHostedUnder (s : σ) (root : ExecutionId) (step : String) (row : StepExecution) : Prop :=
  ∃ id e i, (perform (.instanceOf root) s).answer = .ok id ∧
    (perform (.findExecution row.executionId) s).answer = .ok (some e) ∧
    (perform (.findInstance e.instanceId) s).answer = .ok (some i) ∧
    PartitionName.belongsTo i.name id step = true

/-- Aggregation that answers has replaced one row of what is kept, by the same row with the totals
that it answers with. If the row is not one of a partition of the step, aggregation answers the same
once more, and leaves what is kept. -/
def Aggregates (kept : σ → κ) (replaceStep : StepExecution → κ → κ) (s : σ) : Prop :=
  ∀ (root : ExecutionId) (step : String) (parent : StepId) (time : Timestamp)
    (final : Option (BatchStatus × String)) (total : StepMetrics),
    let aggregate : Action LedgerError σ StepMetrics :=
      Partition.aggregate root step parent time final
    (aggregate s).answer = .ok total → ∃ row : StepExecution,
      (perform (.findStep parent) s).answer = .ok (some row) ∧
        (perform (.findStep parent) (aggregate s).state).answer =
          .ok (some (row.aggregated total time final)) ∧
        kept (aggregate s).state = replaceStep (row.aggregated total time final) (kept s) ∧
        (¬ IsHostedUnder s root step row →
          (aggregate (aggregate s).state).answer = .ok total ∧
            kept (aggregate (aggregate s).state).state = kept (aggregate s).state)

end Statement

/-! ## One aggregation -/

namespace Partition

variable {σ : Type} [LedgerStore σ] {s : σ} {root : ExecutionId} {step : String} {parent : StepId}
  {time : Timestamp} {final : Option (BatchStatus × String)} {total : StepMetrics}
  {row : StepExecution}

/-- There are totals, the step execution is found behind them, and the change of it succeeds. -/
structure Succeeds (s : σ) (root : ExecutionId) (step : String) (parent : StepId) (time : Timestamp)
    (final : Option (BatchStatus × String)) (total : StepMetrics) (row : StepExecution) : Prop where
  added : (totals root step s).answer = .ok total
  found : (perform (.findStep parent) (totals root step s).state).answer = .ok (some row)
  written : (perform (.updateStep parent (row.closing total time final))
    (perform (.findStep parent) (totals root step s).state).state).answer = .ok ()

/-- Parts that succeed make up an aggregation, which leaves what its last part leaves. -/
theorem Succeeds.perform_aggregate (h : Succeeds s root step parent time final total row) :
    (aggregate root step parent time final s).answer = .ok total ∧
      (aggregate root step parent time final s).state =
        (perform (.updateStep parent (row.closing total time final))
          (perform (.findStep parent) (totals root step s).state).state).state := by
  rw [aggregate]
  constructor
  · refine (bind_ok h.added _).1.trans ((bind_ok h.found _).1.trans ?_)
    exact (bind_ok h.written _).1
  · refine (bind_ok h.added _).2.trans ((bind_ok h.found _).2.trans ?_)
    exact (bind_ok h.written _).2

/-- An aggregation that answers is made up of parts that succeed. -/
theorem succeeds_of_aggregate (h : (aggregate root step parent time final s).answer = .ok total) :
    ∃ row, Succeeds s root step parent time final total row := by
  obtain ⟨sum, hadded, hrest, -⟩ := bind_eq_ok h
  obtain ⟨found, hfound, hrest, -⟩ := bind_eq_ok hrest
  obtain ⟨row, hrow, hrest, -⟩ := bind_eq_ok hrest
  obtain ⟨⟨⟩, hwritten, hrest, -⟩ := bind_eq_ok hrest
  obtain ⟨⟨⟩, -, hanswer, -⟩ := bind_eq_ok hrest
  obtain rfl : sum = total := Except.ok.inj hanswer
  cases found with
  | none => exact nomatch hrow
  | some kept =>
    obtain rfl : kept = row := Except.ok.inj hrow
    exact ⟨kept, hadded, hfound, hwritten⟩

end Partition

/-! ## Stores that carry the counts along -/

/-- The states of a store that carries a ledger along, with what it keeps of it. It counts what is
under names of a kind that belong to a step. -/
structure CarriesCounts {σ κ : Type} [LedgerStore σ] (Carries : σ → Memory → Prop) (kept : σ → κ)
    (replaceStep : StepExecution → κ → κ) (counted : InstanceId → String → String → Bool) : Prop
    extends CarriesLedger Carries where
  counted_belongs {root step name} : counted root step name = true →
    PartitionName.belongsTo name root step = true
  counts {s m} (root : InstanceId) {step} : Carries s m → stepNameFault? step = none →
    (perform (.partitionMetrics root step) s).answer = .ok (m.countsUnder (counted root step)) ∧
      Carries (perform (.partitionMetrics root step) s).state m
  /-- A change of a step execution that was made can be made again where the ledger allows it. -/
  updates {s m t n} {id : StepId} {update : StepUpdate} : Carries s m → Carries t n →
    (perform (.updateStep id update) s).answer = .ok () →
    (perform (.updateStep id update) n).answer = .ok () →
      (perform (.updateStep id update) t).answer = .ok () ∧
        Carries (perform (.updateStep id update) t).state (perform (.updateStep id update) n).state
  /-- What is kept depends on the ledger. -/
  kept_same {s t m} : Carries s m → Carries t m → kept t = kept s
  kept_replaced {s t m row} : Carries s m → Carries t (m.replaceStep row) →
    kept t = replaceStep row (kept s)

namespace CarriesCounts

open JobLedger.Partition

variable {σ κ : Type} [LedgerStore σ] {Carries : σ → Memory → Prop} {kept : σ → κ}
  {replaceStep : StepExecution → κ → κ} {counted : InstanceId → String → String → Bool}
  (hcarries : CarriesCounts Carries kept replaceStep counted) {s : σ} {m : Memory} (hm : Carries s m)
  {root : ExecutionId} {step : String} {parent : StepId} {time : Timestamp}
  {final : Option (BatchStatus × String)} {total : StepMetrics} {row : StepExecution}
  {e : JobExecution}

include hcarries hm

/-- Totals are those of what is counted, and adding up leaves the ledger. -/
theorem givesRows (hstep : stepNameFault? step = none) (he : m.execution? root = some e) :
    GivesRows s root step e.instanceId (m.countsUnder (counted e.instanceId step)) ∧
      Carries (totals root step s).state m := by
  have hle := (hcarries.wellFormed hm).execution?_le he
  have hledger : (perform (.instanceOf root) m).answer = .ok e.instanceId := by
    change (m.execution root).map JobExecution.instanceId = .ok e.instanceId
    rw [Memory.execution_eq, he]
    rfl
  obtain ⟨hknown, hnext⟩ := hcarries.lookedUp (.instanceOf root) hm hle
  obtain ⟨hgiven, hafter⟩ := hcarries.counts e.instanceId hnext hstep
  have hrows : GivesRows s root step e.instanceId (m.countsUnder (counted e.instanceId step)) :=
    ⟨hstep, hknown.trans hledger, hgiven⟩
  exact ⟨hrows, hrows.state_totals ▸ hafter⟩

/-- Totals are those of an execution that is there, and of a step name. -/
theorem exists_execution_of_totals (h : (totals root step s).answer = .ok total) :
    stepNameFault? step = none ∧ ∃ e, m.execution? root = some e := by
  obtain ⟨id, rows, hrows⟩ := givesRows_of_totals h
  have hledger := (hcarries.answered (.instanceOf root) hm nofun hrows.known).1
  change (m.execution root).map JobExecution.instanceId = .ok id at hledger
  cases he : m.execution root with
  | error fault =>
    rw [he] at hledger
    exact nomatch hledger
  | ok e => exact ⟨hrows.proper, e, Memory.execution_eq_ok he⟩

/-- The step execution of an aggregation is in the ledger, which is still there when it is found. -/
theorem found (h : Succeeds s root step parent time final total row) :
    m.step? parent = some row ∧
      Carries (perform (.findStep parent) (totals root step s).state).state m := by
  obtain ⟨hstep, e, he⟩ := hcarries.exists_execution_of_totals hm h.added
  have hadded := (hcarries.givesRows hm hstep he).2
  obtain ⟨hfound, hnext⟩ := hcarries.answered (.findStep parent) hadded nofun h.found
  exact ⟨Except.ok.inj hfound, hnext⟩

/-- An aggregation puts the aggregated step execution in the place of one whose execution is on its
way. -/
theorem written (h : Succeeds s root step parent time final total row) :
    (∃ owner, m.execution? row.executionId = some owner ∧ owner.status.isTerminal = false) ∧
      Carries (aggregate root step parent time final s).state
        (m.replaceStep (row.aggregated total time final)) := by
  obtain ⟨hrow, hfound⟩ := hcarries.found hm h
  obtain ⟨hwritten, hafter⟩ := hcarries.answered (.updateStep parent _) hfound nofun h.written
  rw [Memory.perform_eq] at hwritten hafter
  obtain ⟨old, owner, hold, howner, hopen, hchange⟩ :=
    Memory.updateStep_eq_ok (change_eq_ok hwritten)
  obtain rfl : old = row := Option.some.inj (hold.symm.trans hrow)
  obtain ⟨-, hid⟩ := (hcarries.wellFormed hm).step?_eq_some_iff.mp hrow
  have hreplaced := (hcarries.wellFormed hm).modifyStep_eq_replaceStep hrow
    (f := (old.closing total time final).apply) hid
  rw [StepExecution.apply_closing] at hreplaced
  refine ⟨⟨owner, howner, hopen⟩, ?_⟩
  rw [h.perform_aggregate.2, ← hreplaced, ← hchange]
  exact hafter

/-- What stands under the number of the aggregated step execution is the one that was found. -/
theorem replaces (h : Succeeds s root step parent time final total row) :
    (row.aggregated total time final).id = parent ∧
      m.step? (row.aggregated total time final).id = some row := by
  have hrow := (hcarries.found hm h).1
  obtain ⟨-, hid⟩ := (hcarries.wellFormed hm).step?_eq_some_iff.mp hrow
  rw [row.id_aggregated total time final, hid]
  exact ⟨rfl, hrow⟩

/-- The aggregated step execution is found in its place. -/
theorem closed (h : Succeeds s root step parent time final total row) :
    (m.replaceStep (row.aggregated total time final)).step? parent =
      some (row.aggregated total time final) := by
  obtain ⟨hid, hrow⟩ := hcarries.replaces hm h
  have hfound := Memory.step?_replaceStep hrow
  rwa [hid] at hfound

/-- What is counted leaves out a step execution that is not hosted under the step. -/
theorem isUnder_eq_false (hstep : stepNameFault? step = none) (he : m.execution? root = some e)
    (hhost : ¬ IsHostedUnder s root step row) :
    m.isUnder (counted e.instanceId step) row = false := by
  refine Bool.eq_false_iff.mpr fun hunder => hhost ?_
  obtain ⟨owner, howner, hnamed⟩ := (Option.any_eq_true _ _).mp hunder
  obtain ⟨i, hi, hcounted⟩ := (Option.any_eq_true _ _).mp hnamed
  exact ⟨e.instanceId, owner, i, (hcarries.givesRows hm hstep he).1.known,
    (hcarries.findExecution_eq_some_iff hm).mpr howner,
    (hcarries.findInstance_eq_some_iff hm).mpr hi, hcarries.counted_belongs hcounted⟩

/-- Behind an aggregation into a step execution that is not hosted under the step, the totals are
those that were found before. -/
theorem totals_again (h : Succeeds s root step parent time final total row)
    (hhost : ¬ IsHostedUnder s root step row) :
    let again := (aggregate root step parent time final s).state
    (totals root step again).answer = .ok total ∧
      Carries (totals root step again).state
        (m.replaceStep (row.aggregated total time final)) := by
  intro again
  obtain ⟨hstep, e, he⟩ := hcarries.exists_execution_of_totals hm h.added
  have hcounts : (m.replaceStep (row.aggregated total time final)).countsUnder
      (counted e.instanceId step) = m.countsUnder (counted e.instanceId step) :=
    Memory.countsUnder_replaceStep (hcarries.wellFormed hm) (hcarries.replaces hm h).2
      (row.executionId_aggregated total time final) (hcarries.isUnder_eq_false hm hstep he hhost)
  have hsum := (hcarries.givesRows hm hstep he).1.totals_eq_ok_iff.mp h.added
  obtain ⟨hrows, hadded⟩ := hcarries.givesRows (hcarries.written hm h).2 hstep he
  exact ⟨hrows.totals_eq_ok_iff.mpr (hcounts ▸ hsum), hadded⟩

/-- An aggregation into a step execution that is not hosted under the step succeeds again. The change
is the one that was made before, which the step execution has taken already. -/
theorem succeeds_again (h : Succeeds s root step parent time final total row)
    (hhost : ¬ IsHostedUnder s root step row) :
    let again := (aggregate root step parent time final s).state
    Succeeds again root step parent time final total (row.aggregated total time final) ∧
      Carries (aggregate root step parent time final again).state
        (m.replaceStep (row.aggregated total time final)) := by
  intro again
  let closed := row.aggregated total time final
  let next := m.replaceStep closed
  have hbefore := (hcarries.found hm h).2
  obtain ⟨⟨owner, howner, hopen⟩, hnext⟩ := hcarries.written hm h
  obtain ⟨htotals, hadded⟩ := hcarries.totals_again hm h hhost
  have hclosed : next.step? parent = some closed := hcarries.closed hm h
  have hfound := (hcarries.findStep_eq_some_iff hadded).mpr hclosed
  have hlooked : Carries (perform (.findStep parent) (totals root step again).state).state next :=
    (hcarries.answered (.findStep parent) hadded nofun hfound).2
  have hchange : closed.closing total time final = row.closing total time final :=
    row.closing_aggregated total time final
  have htaken : (row.closing total time final).apply closed = closed := by
    rw [← hchange, StepExecution.apply_closing]
    exact row.aggregated_aggregated total time final
  have howned : next.execution? closed.executionId = some owner := by
    rw [row.executionId_aggregated total time final]
    exact howner
  have hledger : perform (.updateStep parent (row.closing total time final)) next =
      ⟨.ok (), next, []⟩ := by
    rw [Memory.perform_eq]
    exact change_ok
      ((hcarries.wellFormed hnext).updateStep_taken hclosed howned hopen htaken)
  obtain ⟨hwritten, hafter⟩ :=
    hcarries.updates hbefore hlooked h.written (congrArg Outcome.answer hledger)
  have hsucceeds : Succeeds again root step parent time final total closed :=
    ⟨htotals, hfound, hchange.symm ▸ hwritten⟩
  refine ⟨hsucceeds, ?_⟩
  rw [hsucceeds.perform_aggregate.2, hchange]
  rwa [hledger] at hafter

/-- A store that carries a ledger along aggregates into one row. -/
theorem aggregates : Aggregates kept replaceStep s := by
  intro root step parent time final total aggregate hanswer
  obtain ⟨row, h⟩ := succeeds_of_aggregate hanswer
  have hrow := (hcarries.found hm h).1
  have hnext := (hcarries.written hm h).2
  have hclosed := hcarries.closed hm h
  refine ⟨row, (hcarries.findStep_eq_some_iff hm).mpr hrow,
    (hcarries.findStep_eq_some_iff hnext).mpr hclosed, hcarries.kept_replaced hm hnext,
    fun hhost => ?_⟩
  obtain ⟨hsucceeds, hsame⟩ := hcarries.succeeds_again hm h hhost
  exact ⟨hsucceeds.perform_aggregate.1, hcarries.kept_same hnext hsame⟩

end CarriesCounts

/-! ## The two stores -/

/-- The store in memory counts all names that belong to the step. -/
theorem Memory.carriesCounts :
    CarriesCounts (fun s m : Memory => s = m ∧ m.WellFormed) id Memory.replaceStep
      fun root step name => PartitionName.belongsTo name root step where
  toCarriesLedger := Memory.carriesLedger
  counted_belongs h := h
  counts {s m} root step := by
    rintro ⟨rfl, hformed⟩ -
    exact ⟨congrArg Except.ok (partitionMetrics_eq_ownedUnder hformed root step), rfl, hformed⟩
  updates := by
    rintro s m t n id update - ⟨rfl, hformed⟩ - hanswer
    exact ⟨hanswer, rfl, keeps_wellFormed (.updateStep id update) t hformed⟩
  kept_same := by
    rintro s t m ⟨rfl, -⟩ ⟨rfl, -⟩
    rfl
  kept_replaced := by
    rintro s t m row ⟨rfl, -⟩ ⟨rfl, -⟩
    rfl

/-- A share that has all executions and step executions. -/
def Share.everything (id : InstanceId) : Share := ⟨id, fun _ => true, fun _ => true⟩

/-- A change of a step execution that a store in a database has made fits. -/
theorem fits_of_updateStep {σ : Type} [KeepsDatabase σ] {s : σ} {id : StepId} {update : StepUpdate}
    (h : (perform (.updateStep id update) s).answer = .ok ()) :
    (Call.updateStep id update).Fits := by
  by_contra hunfit
  have hcall : (Call.updateStep id update).StaysIn (.everything ⟨1, by decide, by decide⟩) := rfl
  obtain ⟨e, he⟩ := Database.refusesAlike_perform (σ := σ) hcall hunfit
  rw [he s] at h
  exact nomatch h

/-- The store in a file counts the names that belong to the step without a zero in front. -/
theorem OpenLedger.carriesCounts :
    CarriesCounts OpenLedger.Carries OpenLedger.database Database.replaceStep fun root step name =>
      PartitionName.belongsTo name root step && !PartitionName.isPadded name where
  toCarriesLedger := OpenLedger.carriesLedger
  counted_belongs h := (Bool.and_eq_true_iff.mp h).1
  counts root step hm hstep :=
    ⟨(hm.partitionMetrics_eq_countsUnder root hstep).2, hm.carries_partitionMetrics root step⟩
  updates {s m t n id update} hm hn hmade hanswer := by
    have hfits := fits_of_updateStep hmade
    have hcall : (Call.updateStep id update).StaysIn (.everything ⟨1, by decide, by decide⟩) := rfl
    have hnext := hn.storable.perform hcall hfits nofun
    obtain ⟨hsame, hcarries⟩ := hn.agrees (.updateStep id update) nofun hfits hnext
    exact ⟨hsame.trans hanswer, hcarries⟩
  kept_same hm ht := ht.database_eq.trans hm.database_eq.symm
  kept_replaced {s t m row} hm ht := by
    rw [ht.database_eq, hm.database_eq, Memory.database_replaceStep]

/-- After every run of operations on either store, an aggregation writes its totals to one row and
leaves all others. Unless that row is counted itself, aggregating again gives the same totals and
leaves the store. -/
theorem aggregates_reached (operations : List Operation) :
    Aggregates id Memory.replaceStep (Operation.run Memory.empty operations) ∧
      ∀ {t : FileTree} {settings : StoreSettings} {place : Place} {l : OpenLedger},
        l.OpenedAt t settings place →
          Aggregates OpenLedger.database Database.replaceStep (Operation.run l operations) := by
  constructor
  · exact Memory.carriesCounts.aggregates ⟨rfl, Memory.wellFormed_reached operations⟩
  · intro t settings place l hl
    obtain ⟨m, hm⟩ := hl.carries_run operations
    exact OpenLedger.carriesCounts.aggregates hm

/-- Two partitions are aggregated into a step execution of their root, which keeps its data, and once
more to the same end. -/
theorem aggregates_atStart :
    let load : InstanceId := ⟨1, by decide, by decide⟩
    let root : ExecutionId := ⟨1, by decide, by decide⟩
    let parent : StepId := ⟨1, by decide, by decide⟩
    let operations := [.call (.createInstance "load" "nightly" none),
      .createPartitions load "copy" 2 "nightly",
      .call (.createExecution load .empty .started ⟨1⟩),
      .call (.createExecution ⟨2, by decide, by decide⟩ .empty .started ⟨1⟩),
      .call (.createExecution ⟨3, by decide, by decide⟩ .empty .started ⟨1⟩),
      .call (.createStep root "copy" StepMetrics.zero ⟨2⟩),
      .call (.updateStep parent { metrics := StepMetrics.zero, userData := some [1, 2] }),
      .call (.createStep ⟨2, by decide, by decide⟩ "copy" (Counters.const 7) ⟨3⟩),
      .call (.createStep ⟨3, by decide, by decide⟩ "copy" (Counters.const 9) ⟨3⟩)]
    let aggregate : Action LedgerError Memory StepMetrics :=
      Partition.aggregate root "copy" parent ⟨9⟩ (some (.completed, "done"))
    let once := (aggregate (Operation.run Memory.empty operations)).state
    Aggregates OpenLedger.database Database.replaceStep
        (Operation.run OpenLedger.atStart operations) ∧
      (aggregate (Operation.run Memory.empty operations)).answer = .ok (Counters.const 16) ∧
      (perform (.findStep parent) once).answer =
        .ok (some ⟨parent, root, "copy", .completed, some "done", Counters.const 16, ⟨2⟩, some ⟨9⟩,
          some [1, 2]⟩) ∧
      (aggregate once).answer = .ok (Counters.const 16) ∧ (aggregate once).state = once := by
  intro load root parent operations aggregate once
  let reached := Operation.run Memory.empty operations
  let started : StepExecution :=
    ⟨parent, root, "copy", .starting, none, StepMetrics.zero, ⟨2⟩, none, some [1, 2]⟩
  let execution : JobExecution :=
    ⟨root, load, "load", ⟨1⟩, none, none, ⟨1⟩, .started, none, .empty⟩
  have hanswer : (aggregate reached).answer = .ok (Counters.const 16) :=
    eq_ok_of_toOption (by decide +kernel)
  have hstarted : (perform (.findStep parent) reached).answer = .ok (some started) :=
    eq_ok_of_toOption (by decide +kernel)
  have hexecution : (perform (.findExecution root) reached).answer = .ok (some execution) :=
    eq_ok_of_toOption (by decide +kernel)
  have hload : (perform (.findInstance load) reached).answer =
      .ok (some ⟨load, "load", "nightly", none⟩) := eq_ok_of_toOption (by decide +kernel)
  obtain ⟨hmemory, hfiles⟩ := aggregates_reached operations
  obtain ⟨row, hrow, hclosed, -, hagain⟩ :=
    hmemory root "copy" parent ⟨9⟩ (some (.completed, "done")) (Counters.const 16) hanswer
  obtain rfl : row = started := Option.some.inj (Except.ok.inj (hrow.symm.trans hstarted))
  refine ⟨hfiles OpenLedger.openedAt_atStart, hanswer, hclosed, hagain ?_⟩
  -- The root is no partition: its name has no colon in front.
  rintro ⟨id, e, i, -, he, hi, hbelongs⟩
  obtain rfl : e = execution := Option.some.inj (Except.ok.inj (he.symm.trans hexecution))
  obtain rfl : i = ⟨load, "load", "nightly", none⟩ :=
    Option.some.inj (Except.ok.inj (hi.symm.trans hload))
  exact absurd (PartitionName.isPartitionName_of_belongsTo hbelongs) (by decide)

end JobLedger
