import JobLedger.Proofs.Logging
import JobLedger.Proofs.Memory.Remembering

/-!
# History is kept

The calls that succeeded on a store tell what is in its history. An instance is as it was created. An
execution and a step execution are as they were created in what is settled then; the times and the
statuses of an execution are those that it was last given. Nothing but a purge of its tag takes an
instance away, and with it its executions and their step executions.
-/

namespace JobLedger

/-- The history that a store shows is what a log tells of it. -/
structure KeepsHistory {σ : Type} [LedgerStore σ] (log : CallLog) (s : σ) : Prop where
  /-- An instance is the one that was created under its number. -/
  instance_eq : ∀ id i, (perform (.findInstance id) s).answer = .ok (some i) →
    log.instances.filter (fun made => made.id = id) = [i]
  instance_stays : ∀ i ∈ log.instances, ¬ log.PurgedSince i →
    (perform (.findInstance i.id) s).answer = .ok (some i)
  /-- An execution was created once under its number, has the name of its instance, and the times and
  the statuses that it was given since. -/
  execution_eq : ∀ id e, (perform (.findExecution id) s).answer = .ok (some e) →
    log.executions.filter (fun made => made.id = id) = [e.start] ∧
      e.FollowsFrom (log.changesOf id) ∧
        ∃ i, (perform (.findInstance e.instanceId) s).answer = .ok (some i) ∧ i.name = e.jobName
  execution_stays : ∀ start ∈ log.executions, ∀ i,
    (perform (.findInstance start.instanceId) s).answer = .ok (some i) →
      ∃ e, (perform (.findExecution start.id) s).answer = .ok (some e)
  /-- A step execution was created once under its number. -/
  step_eq : ∀ id row, (perform (.findStep id) s).answer = .ok (some row) →
    log.steps.filter (fun made => made.id = id) = [row.start]
  step_stays : ∀ start ∈ log.steps, ∀ e,
    (perform (.findExecution start.executionId) s).answer = .ok (some e) →
      ∃ row, (perform (.findStep start.id) s).answer = .ok (some row)

/-- A store that carries a ledger shows the history that the ledger remembers. -/
theorem CarriesLedger.keepsHistory {σ : Type} [LedgerStore σ] {Carries : σ → Memory → Prop}
    (hcarries : CarriesLedger Carries) {s : σ} {m : Memory} (hm : Carries s m) {log : CallLog}
    (h : m.Remembers log) : KeepsHistory log s := by
  have hformed := hcarries.wellFormed hm
  constructor
  · intro id i hi
    rw [hcarries.findInstance_eq_some_iff hm, hformed.instance?_eq_some_iff] at hi
    obtain ⟨hmem, rfl⟩ := hi
    exact h.numbers.instances.sorted.distinct.filter_eq_singleton (h.instances.made i hmem)
  · intro i hi hpurged
    rw [hcarries.findInstance_eq_some_iff hm, hformed.instance?_eq_some_iff]
    exact ⟨(h.instances.kept i hi).resolve_right hpurged, rfl⟩
  · intro id e he
    rw [hcarries.findExecution_eq_some_iff hm, hformed.execution?_eq_some_iff] at he
    obtain ⟨hmem, rfl⟩ := he
    obtain ⟨i, hi, hname⟩ := hformed.exists_instance hmem
    exact ⟨h.numbers.executions.sorted.distinct.filter_eq_singleton (h.executions.made e hmem),
      h.executions.follows e hmem, i, (hcarries.findInstance_eq_some_iff hm).mpr hi, hname⟩
  · intro start hstart i hi
    rw [hcarries.findInstance_eq_some_iff hm, hformed.instance?_eq_some_iff] at hi
    obtain ⟨e, he, hid⟩ := h.executions.kept start hstart ⟨i, hi⟩
    refine ⟨e, ?_⟩
    rw [hcarries.findExecution_eq_some_iff hm, hformed.execution?_eq_some_iff]
    exact ⟨he, hid⟩
  · intro id row hrow
    rw [hcarries.findStep_eq_some_iff hm, hformed.step?_eq_some_iff] at hrow
    obtain ⟨hmem, rfl⟩ := hrow
    exact h.numbers.steps.sorted.distinct.filter_eq_singleton (h.steps.made row hmem)
  · intro start hstart e he
    rw [hcarries.findExecution_eq_some_iff hm, hformed.execution?_eq_some_iff] at he
    obtain ⟨row, hrow, hid⟩ := h.steps.kept start hstart ⟨e, he⟩
    refine ⟨row, ?_⟩
    rw [hcarries.findStep_eq_some_iff hm, hformed.step?_eq_some_iff]
    exact ⟨hrow, hid⟩

/-- After every run of operations on either store, its history is what the calls tell that succeeded
on it. -/
theorem keepsHistory_reached (operations : List Operation) :
    KeepsHistory (Operation.log Memory.empty operations) (Operation.run Memory.empty operations) ∧
      ∀ {t : FileTree} {settings : StoreSettings} {place : Place} {l : OpenLedger},
        l.OpenedAt t settings place →
          KeepsHistory (Operation.log l operations) (Operation.run l operations) := by
  have hremembers : CallLog.Extends Memory.Remembers :=
    fun hformed h hstep => h.step hformed hstep
  constructor
  · obtain ⟨m, hm, h⟩ := exists_bearsLogged Memory.carriesLedger hremembers Memory.remembers_empty
      ⟨rfl, Memory.wellFormed_empty⟩ operations
    exact Memory.carriesLedger.keepsHistory hm h
  · intro t settings place l hl
    obtain ⟨m, hm, h⟩ := exists_bearsLogged OpenLedger.carriesLedger hremembers
      Memory.remembers_empty hl.carries operations
    exact OpenLedger.carriesLedger.keepsHistory hm h

/-- An execution is started twice and finalized once; an update of its step execution and a status of
its instance leave it as it is. -/
theorem keepsHistory_atStart :
    let id : InstanceId := ⟨1, by decide, by decide⟩
    let execution : ExecutionId := ⟨1, by decide, by decide⟩
    let step : StepId := ⟨1, by decide, by decide⟩
    let operations := [.call (.createInstance "load" "nightly" none),
      .call (.createExecution id .empty .starting ⟨1⟩), .call (.markStarted execution ⟨2⟩),
      .call (.createStep execution "copy" StepMetrics.zero ⟨3⟩),
      .call (.markStarted execution ⟨4⟩), .createJobStatus id,
      .call (.finalizeExecution execution .completed "done" ⟨5⟩),
      .call (.markStarted ⟨2, by decide, by decide⟩ ⟨6⟩),
      .call (.updateStep step { metrics := Counters.const 7 })]
    let e : JobExecution :=
      ⟨execution, id, "load", ⟨1⟩, some ⟨4⟩, some ⟨5⟩, ⟨5⟩, .completed, some "done", .empty⟩
    KeepsHistory (Operation.log OpenLedger.atStart operations)
        (Operation.run OpenLedger.atStart operations) ∧
      (perform (.findExecution execution) (Operation.run Memory.empty operations)).answer =
        .ok (some e) ∧
      e.FollowsFrom ((Operation.log Memory.empty operations).changesOf execution) := by
  intro id execution step operations e
  obtain ⟨hmemory, hfiles⟩ := keepsHistory_reached operations
  have he : (perform (.findExecution execution) (Operation.run Memory.empty operations)).answer =
      .ok (some e) := eq_ok_of_toOption (by decide +kernel)
  exact ⟨hfiles OpenLedger.openedAt_atStart, he, (hmemory.execution_eq execution e he).2.1⟩

end JobLedger
