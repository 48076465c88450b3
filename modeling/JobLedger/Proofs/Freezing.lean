import JobLedger.Proofs.Memory.Lasting
import JobLedger.Proofs.Runs

/-!
# Step executions freeze with their execution

The row of a step execution is written to only while its execution is on its way. Nothing keeps an
execution that has ended from being put on its way again: marking it as started, or giving it such a
status, is let through. Up to that point its step executions stay exactly as they are, on both
stores, until a purge removes them for good.
-/

namespace JobLedger

open JobLedger.Action

/-- An operation gives an execution a status in which it is on its way. -/
def Operation.Reopens (id : ExecutionId) (operation : Operation) : Prop :=
  ∃ call status, operation = .call call ∧ call.executionStatus? = some (id, status) ∧
    status.isRunning = true

/-- The row of a step execution whose execution has ended is found unchanged through every run that
does not put the execution on its way again, until a purge behind which it is never found. -/
def FreezesSteps {σ : Type} [LedgerStore σ] (s : σ) : Prop :=
  ∀ (e : JobExecution) (row : StepExecution),
    (perform (.findExecution e.id) s).answer = .ok (some e) → e.status.isTerminal = true →
    (perform (.findStep row.id) s).answer = .ok (some row) → row.executionId = e.id →
    ∀ operations : List Operation, (∀ operation ∈ operations, ¬ operation.Reopens e.id) →
      UntilPurge (fun t => (perform (.findStep row.id) t).answer = .ok (some row))
        (fun t => (perform (.findStep row.id) t).answer = .ok none) s operations

section Carried

variable {σ : Type} [LedgerStore σ] {Carries : σ → Memory → Prop} {row : StepExecution}
  (hcarries : CarriesLedger Carries)

include hcarries

/-- A step execution that has ended stays as it is unless its execution is started anew or purged.
-/
theorem keeps_hasEndedStep {operation : Operation} (hopen : ¬ operation.Reopens row.executionId)
    (hpurge : ∀ tag, operation ≠ .call (.purge tag)) :
    Keeps (Bears Carries fun m => m.HasEndedStep row)
      (operation.perform : Action LedgerError σ operation.Answer) := by
  refine Operation.keeps_perform fun call hmakes => keeps_bears hcarries fun hformed hrow hchange => ?_
  refine hchange.hasEndedStep hformed hrow (fun status hstatus => ?_) fun tag heq => ?_
  · have halone : call.StandsAlone := by
      cases call <;> trivial
    have hcall := Operation.eq_call_of_makes hmakes halone
    have hrunning : status.isRunning ≠ true := fun h => hopen ⟨call, status, hcall, hstatus, h⟩
    simpa [BatchStatus.isTerminal_eq] using hrunning
  · subst heq
    exact hpurge tag (Operation.eq_call_of_makes hmakes trivial)

/-- A step execution that has ended is found as it is. -/
theorem findStep_of_hasEndedStep {s : σ} (hs : Bears Carries (fun m => m.HasEndedStep row) s) :
    (perform (.findStep row.id) s).answer = .ok (some row) := by
  obtain ⟨m, hm, hmem, -⟩ := hs
  exact (hcarries.findStep_eq_some_iff hm).mpr
    ((hcarries.wellFormed hm).step?_eq_some_iff.mpr ⟨hmem, rfl⟩)

/-- A step execution that is gone is not found. -/
theorem findStep_of_stepGone {id : StepId} {s : σ}
    (hs : Bears Carries (fun m => m.StepGone id) s) :
    (perform (.findStep id) s).answer = .ok none := by
  obtain ⟨m, hm, hgone⟩ := hs
  rw [(hcarries.lookedUp (.findStep id) hm hgone.1).1, ← hgone.step?_eq_none]
  rfl

/-- A store that carries a ledger freezes the rows of executions that have ended. -/
theorem CarriesLedger.freezesSteps {s : σ} {m : Memory} (hm : Carries s m) : FreezesSteps s := by
  intro e row he hended hrow hof operations hopen
  have hformed := hcarries.wellFormed hm
  have hexecution := (hcarries.findExecution_eq_some_iff hm).mp he
  have hstep := (hcarries.findStep_eq_some_iff hm).mp hrow
  have hstart : m.HasEndedStep row :=
    ⟨(hformed.step?_eq_some_iff.mp hstep).1, e, (hformed.execution?_eq_some_iff.mp hexecution).1,
      hof.symm, hended⟩
  rw [← hof] at hopen
  exact untilPurge_of_keeps
    (fun operation hmem hpurge => keeps_hasEndedStep hcarries (hopen operation hmem) hpurge)
    (fun _ _ => bears_purge hcarries fun hformed hrow => hformed.hasEndedStep_remaining hrow _)
    (fun _ => keeps_bears hcarries fun hformed hgone hchange => hchange.stepGone hformed hgone)
    (fun _ => findStep_of_hasEndedStep hcarries) (fun _ => findStep_of_stepGone hcarries)
    ⟨m, hm, hstart⟩

end Carried

/-- After every run of operations on either store, the step executions of an execution that has ended
stay as they are, unless it is put on its way again. -/
theorem freezesSteps_reached (operations : List Operation) :
    FreezesSteps (Operation.run Memory.empty operations) ∧
      ∀ {t : FileTree} {settings : StoreSettings} {place : Place} {l : OpenLedger},
        l.OpenedAt t settings place → FreezesSteps (Operation.run l operations) :=
  reached_of_carries (fun hcarries _ _ => hcarries.freezesSteps) operations

/-- A step execution of a finalized execution stays through an update, which is refused, and through
another final status of the execution, until its tag is purged. -/
theorem freezesSteps_atStart :
    let id : InstanceId := ⟨1, by decide, by decide⟩
    let execution : ExecutionId := ⟨1, by decide, by decide⟩
    let step : StepId := ⟨1, by decide, by decide⟩
    let row : StepExecution :=
      ⟨step, execution, "copy", .starting, none, StepMetrics.zero, ⟨5⟩, none, none⟩
    let operations := [.call (.createInstance "load" "nightly" none),
      .call (.createExecution id .empty .starting ⟨1⟩),
      .call (.createStep execution "copy" StepMetrics.zero ⟨5⟩),
      .call (.finalizeExecution execution .completed "done" ⟨9⟩)]
    let later := [.call (.updateStep step { metrics := Counters.const 7 }),
      .call (.setExecutionStatus execution .failed ⟨11⟩), .call (.purge "nightly")]
    FreezesSteps (Operation.run OpenLedger.atStart operations) ∧
      UntilPurge (fun t : Memory => (perform (.findStep step) t).answer = .ok (some row))
        (fun t => (perform (.findStep step) t).answer = .ok none)
        (Operation.run Memory.empty operations) later := by
  intro id execution step row operations later
  refine ⟨(freezesSteps_reached operations).2 OpenLedger.openedAt_atStart, ?_⟩
  let ended : JobExecution :=
    ⟨execution, id, "load", ⟨1⟩, none, some ⟨9⟩, ⟨9⟩, .completed, some "done", .empty⟩
  refine (freezesSteps_reached operations).1 ended row (by rfl) rfl (by rfl) rfl later ?_
  rintro operation hmem ⟨call, status, rfl, hstatus, hrunning⟩
  simp only [later, List.mem_cons, List.not_mem_nil, or_false, Operation.call.injEq] at hmem
  rcases hmem with rfl | rfl | rfl
  · cases hstatus
  · cases hstatus
    cases hrunning
  · cases hstatus

/-- An execution that was finalized is marked as started, and its step execution takes an update. -/
theorem findStep_after_restart :
    let id : InstanceId := ⟨1, by decide, by decide⟩
    let execution : ExecutionId := ⟨1, by decide, by decide⟩
    let step : StepId := ⟨1, by decide, by decide⟩
    let row : StepExecution :=
      ⟨step, execution, "copy", .starting, none, StepMetrics.zero, ⟨5⟩, none, none⟩
    let ended := Operation.run Memory.empty [.call (.createInstance "load" "nightly" none),
      .call (.createExecution id .empty .starting ⟨1⟩),
      .call (.createStep execution "copy" StepMetrics.zero ⟨5⟩),
      .call (.finalizeExecution execution .completed "done" ⟨9⟩)]
    let restarted := Operation.run ended [.call (.markStarted execution ⟨11⟩),
      .call (.updateStep step { metrics := Counters.const 7 })]
    (perform (.findStep step) ended).answer = .ok (some row) ∧
      (perform (.findStep step) restarted).answer =
        .ok (some { row with metrics := Counters.const 7 }) := by
  exact ⟨by rfl, by rfl⟩

end JobLedger
