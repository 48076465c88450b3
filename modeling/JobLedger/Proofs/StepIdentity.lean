import JobLedger.Proofs.Memory.StepRecords
import JobLedger.Proofs.Runs

/-!
# A step has one status record

The status record of a step of an instance is kept under a step execution, and a later look-up is
answered with the record under the same one, until a purge removes the instance for good. Nothing
keeps a record from being created for a step execution before it that entered the step without one:
the step is then found with that record.
-/

namespace JobLedger

open JobLedger.Action

/-- A store shows that a step execution enters a step of an instance. -/
def EntersStep {σ : Type} [LedgerStore σ] (s : σ) (id : InstanceId) (step : String)
    (entry : StepId) : Prop :=
  ∃ row e, (perform (.findStep entry) s).answer = .ok (some row) ∧ row.stepName = step ∧
    (perform (.findExecution row.executionId) s).answer = .ok (some e) ∧ e.instanceId = id

/-- An operation creates the status record of a step execution. -/
def Operation.Records (entry : StepId) (operation : Operation) : Prop :=
  operation = .createStepStatus entry ∨ operation = .call (.createStepStatus entry)

/-- A step of an instance that is found with the status record under a key is found with the record
under this key through every run that creates no record for a step execution before it that entered
the step, until a purge behind which neither the instance nor the record is ever found. -/
def KeepsStepRecord {σ : Type} [LedgerStore σ] (s : σ) : Prop :=
  ∀ (id : InstanceId) (step : String) (status : StepStatus),
    ((Operation.stepStatus id step).perform s).answer = .ok status →
    ∀ operations : List Operation,
      (∀ entry, EntersStep s id step entry → entry.number < status.statusId.number →
        ∀ operation ∈ operations, ¬ operation.Records entry) →
      UntilPurge
        (fun t => ∃ later, ((Operation.stepStatus id step).perform t).answer = .ok later ∧
          later.statusId = status.statusId)
        (fun t => (perform (.findInstance id) t).answer = .ok none ∧
          ((Operation.stepStatus id step).perform t).answer =
            .error ⟨.notFound, .namedStepStatus id step⟩) s operations

/-- An operation that may create the status record of a step execution is there for it. -/
theorem Operation.records_of_makes {operation : Operation} {entry : StepId}
    (hmakes : operation.Makes (.createStepStatus entry)) : operation.Records entry := by
  cases operation with
  | call call =>
    obtain rfl : Call.createStepStatus entry = call := hmakes
    exact .inr rfl
  | createStepStatus id =>
    obtain rfl := Call.createStepStatus.inj hmakes
    exact .inl rfl
  | updateJobStatus status | updateStepStatus id step status | ensureCheckpoint id step =>
    rcases hmakes with h | h <;> cases h
  | moveJob id transition | partitionTotals root step =>
    rcases hmakes with h | ⟨_, h⟩ <;> cases h
  | aggregatePartitions root step parent time final =>
    rcases hmakes with (h | ⟨_, h⟩) | h | ⟨_, h⟩ <;> cases h
  | createPartitions root step count appTag | updateEncoded reader writer id step read written =>
    obtain ⟨_, h⟩ := hmakes
    cases h
  | _ => cases hmakes

section Carried

variable {σ : Type} [LedgerStore σ] {Carries : σ → Memory → Prop}
  (hcarries : CarriesLedger Carries) {id : InstanceId} {step : String}

include hcarries

theorem entersStep_iff {s : σ} {m : Memory} (hm : Carries s m) {entry : StepId} :
    EntersStep s id step entry ↔ m.Enters id step entry := by
  rw [(hcarries.wellFormed hm).enters_iff]
  simp only [EntersStep, hcarries.findStep_eq_some_iff hm, hcarries.findExecution_eq_some_iff hm]

/-- An operation keeps the record that a step is held by, unless it creates one before it. -/
theorem keeps_heldUnder {key : StepId} {Unrecorded : StepId → Prop} {operation : Operation}
    (hrecords : ∀ entry, Unrecorded entry → ¬ operation.Records entry)
    (hpurge : ∀ tag, operation ≠ .call (.purge tag)) :
    Keeps (Bears Carries fun m => m.HeldUnder id step key Unrecorded)
      (operation.perform : Action LedgerError σ operation.Answer) := by
  refine Operation.keeps_perform fun call hmakes => keeps_bears hcarries fun hformed hheld h => ?_
  refine h.heldUnder hformed hheld (fun tag heq => ?_) fun entry heq hun => ?_
  · subst heq
    exact hpurge tag (Operation.eq_call_of_makes hmakes trivial)
  · subst heq
    exact hrecords entry hun (Operation.records_of_makes hmakes)

/-- The status record of a step of an instance whose number was given out is looked up as in the
ledger. -/
theorem stepStatus_answer {s : σ} {m : Memory} (hm : Carries s m)
    (hknown : id.number ≤ m.lastInstance) (hname : stepNameFault? step = none) :
    (Tracker.stepStatus id step s).answer =
      (m.findStepStatus id step).elim (.error ⟨.notFound, .namedStepStatus id step⟩) .ok := by
  have hfound : (perform (.findStepStatus id step) s).answer = .ok (m.findStepStatus id step) :=
    (hcarries.lookedUp (.findStepStatus id step) hm hknown).1
  rw [Tracker.stepStatus, ensureStepName_of_none hname]
  refine (bind_ok hfound fun found => ofOption ⟨.notFound, .namedStepStatus id step⟩ found).1.trans ?_
  cases m.findStepStatus id step <;> rfl

/-- A status record that is looked up is the one of the ledger. -/
theorem findStepStatus_of_answer {s : σ} {m : Memory} (hm : Carries s m) {status : StepStatus}
    (hanswer : (Tracker.stepStatus id step s).answer = .ok status) :
    stepNameFault? step = none ∧ m.findStepStatus id step = some status := by
  rw [Tracker.stepStatus, ensureStepName] at hanswer
  cases hname : stepNameFault? step with
  | some fault =>
    rw [hname] at hanswer
    cases hanswer
  | none =>
    rw [hname] at hanswer
    obtain ⟨-, -, hrest, -⟩ := bind_eq_ok hanswer
    obtain ⟨found, hfound, hsome, -⟩ := bind_eq_ok hrest
    obtain rfl : found = some status := by
      cases found with
      | none => cases hsome
      | some other => exact congrArg some (Except.ok.inj hsome)
    have hmetrics : ∀ root step', Call.findStepStatus id step ≠ .partitionMetrics root step' := by
      intro root step' heq
      cases heq
    exact ⟨rfl, Except.ok.inj (hcarries.answered _ hm hmetrics hfound).1⟩

/-- A store that carries a ledger keeps the status records of its steps. -/
theorem CarriesLedger.keepsStepRecord {s : σ} {m : Memory} (hm : Carries s m) :
    KeepsStepRecord s := by
  intro id step status hanswer operations hrecords
  have hformed := hcarries.wellFormed hm
  obtain ⟨hname, hfound⟩ := findStepStatus_of_answer hcarries hm hanswer
  obtain ⟨hentered, hrecord, hnone⟩ := hformed.findStepStatus_eq_some_iff.mp hfound
  -- Not recorded are the step executions that entered the step before, as the run begins.
  let unrecorded (entry : StepId) : Prop :=
    m.Enters id step entry ∧ entry.number < status.statusId.number
  have hstart : m.HeldUnder id step status.statusId unrecorded :=
    ⟨hentered, Option.isSome_of_mem hrecord, fun entry hentry hlt =>
      ⟨⟨hentry, hlt⟩, hnone entry hentry hlt⟩⟩
  have hkeeps : ∀ operation ∈ operations, (∀ tag, operation ≠ .call (.purge tag)) →
      Keeps (Bears Carries fun m => m.HeldUnder id step status.statusId unrecorded)
        (operation.perform : Action LedgerError σ operation.Answer) :=
    fun operation hmem hpurge => keeps_heldUnder hcarries
      (fun entry hun => hrecords entry ((entersStep_iff hcarries hm).mpr hun.1) hun.2 operation hmem)
      hpurge
  refine untilPurge_of_keeps (J := Bears Carries fun m => m.InstanceGone id) hkeeps
    (fun _ tag => bears_purge hcarries fun hformed hheld => hformed.heldUnder_remaining hheld tag)
    (fun _ => keeps_bears hcarries fun hformed hgone h => h.instanceGone hformed hgone) ?_ ?_
    ⟨m, hm, hstart⟩
  · rintro t ⟨n, hn, hheld⟩
    have hformed := hcarries.wellFormed hn
    obtain ⟨later, hlater, hkey⟩ := hformed.exists_of_heldUnder hheld
    obtain ⟨i, hi, hid⟩ := hformed.exists_instance_of_enters hheld.entered
    refine ⟨later, ?_, hkey⟩
    exact (stepStatus_answer hcarries hn (hid ▸ hformed.instance_le i hi) hname).trans (by rw [hlater]; rfl)
  · rintro t ⟨n, hn, hgone⟩
    refine ⟨?_, (stepStatus_answer hcarries hn hgone.1 hname).trans ?_⟩
    · rw [(hcarries.lookedUp (.findInstance id) hn hgone.1).1]
      exact congrArg Except.ok (find?_key_eq_none_iff.mpr hgone.2)
    · rw [(hcarries.wellFormed hn).findStepStatus_of_instanceGone hgone]
      rfl

end Carried

/-- After every run of operations on either store, a step of an instance keeps its status record,
unless one is created for an earlier step execution of it. -/
theorem keepsStepRecord_reached (operations : List Operation) :
    KeepsStepRecord (Operation.run Memory.empty operations) ∧
      ∀ {t : FileTree} {settings : StoreSettings} {place : Place} {l : OpenLedger},
        l.OpenedAt t settings place → KeepsStepRecord (Operation.run l operations) :=
  reached_of_carries (fun hcarries _ _ => hcarries.keepsStepRecord) operations

/-- A step that was first entered by its second step execution keeps that record through a restart,
which enters it once more, until its tag is purged. -/
theorem keepsStepRecord_atStart :
    let id : InstanceId := ⟨1, by decide, by decide⟩
    let first : ExecutionId := ⟨1, by decide, by decide⟩
    let second : ExecutionId := ⟨2, by decide, by decide⟩
    let entry : StepId := ⟨2, by decide, by decide⟩
    let again : StepId := ⟨3, by decide, by decide⟩
    let operations := [.call (.createInstance "load" "nightly" none),
      .call (.createExecution id .empty .starting ⟨1⟩),
      .call (.createStep first "copy" StepMetrics.zero ⟨5⟩),
      .call (.createStep first "copy" StepMetrics.zero ⟨6⟩), .createStepStatus entry]
    let later := [.call (.createExecution id .empty .starting ⟨7⟩),
      .call (.createStep second "copy" StepMetrics.zero ⟨8⟩), .createStepStatus again,
      .incrementStartCount entry, .call (.purge "nightly")]
    KeepsStepRecord (Operation.run OpenLedger.atStart operations) ∧
      UntilPurge
        (fun t : Memory => ∃ record,
          ((Operation.stepStatus id "copy").perform t).answer = .ok record ∧ record.statusId = entry)
        (fun t => (perform (.findInstance id) t).answer = .ok none ∧
          ((Operation.stepStatus id "copy").perform t).answer =
            .error ⟨.notFound, .namedStepStatus id "copy"⟩)
        (Operation.run Memory.empty operations) later := by
  intro id first second entry again operations later
  refine ⟨(keepsStepRecord_reached operations).2 OpenLedger.openedAt_atStart, ?_⟩
  refine (keepsStepRecord_reached operations).1 id "copy" (.fresh entry)
    (eq_ok_of_toOption (by decide +kernel)) later ?_
  intro earlier hearlier hlt operation hmem hrecords
  simp only [later, List.mem_cons, List.not_mem_nil, or_false] at hmem
  rcases hmem with rfl | rfl | rfl | rfl | rfl <;> rcases hrecords with h | h <;> cases h
  exact absurd hlt (by decide)

/-- A record is created for the first step execution of a step after that of the second one, and the
step is found with another record. -/
theorem stepStatus_after_earlier_entry :
    let id : InstanceId := ⟨1, by decide, by decide⟩
    let execution : ExecutionId := ⟨1, by decide, by decide⟩
    let earlier : StepId := ⟨1, by decide, by decide⟩
    let entry : StepId := ⟨2, by decide, by decide⟩
    let recorded := Operation.run Memory.empty [.call (.createInstance "load" "nightly" none),
      .call (.createExecution id .empty .starting ⟨1⟩),
      .call (.createStep execution "copy" StepMetrics.zero ⟨5⟩),
      .call (.createStep execution "copy" StepMetrics.zero ⟨6⟩), .createStepStatus entry]
    ((Operation.stepStatus id "copy").perform recorded).answer = .ok (.fresh entry) ∧
      ((Operation.stepStatus id "copy").perform
        (Operation.run recorded [.createStepStatus earlier])).answer = .ok (.fresh earlier) := by
  exact ⟨eq_ok_of_toOption (by decide +kernel), eq_ok_of_toOption (by decide +kernel)⟩

end JobLedger
