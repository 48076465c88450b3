import JobLedger.Proofs.Runs

/-!
# The latest step execution of each name

An instance may be run again and again, and each of its executions runs steps under the same names.
Asked for the recent step executions of an instance, a store goes through all of them from the
latest to the first and keeps those whose name it has not seen. What is kept is, for each name that
was ever used, the step execution with the greatest number.
-/

namespace JobLedger

section Statement

variable {σ : Type} [LedgerStore σ]

/-- A step execution is found under its number, and its execution belongs to an instance. -/
def IsStepOf (s : σ) (id : InstanceId) (row : StepExecution) : Prop :=
  (perform (.findStep row.id) s).answer = .ok (some row) ∧
    ∃ e, (perform (.findExecution row.executionId) s).answer = .ok (some e) ∧ e.instanceId = id

/-- A list has, for each step name of an instance, its latest step execution. -/
structure ListsRecent (s : σ) (id : InstanceId) (rows : List StepExecution) : Prop where
  descending : rows.Pairwise fun a b => b.id.number < a.id.number
  /-- No name comes twice. -/
  once : (rows.map StepExecution.stepName).Nodup
  /-- The names are those of all step executions of the instance. -/
  names : ∀ name, name ∈ rows.map StepExecution.stepName ↔
    ∃ row, IsStepOf s id row ∧ row.stepName = name
  /-- A row that is listed is found so under its number, and is the latest one of its name. -/
  latest : ∀ row, row ∈ rows ↔ IsStepOf s id row ∧
    ∀ other, IsStepOf s id other → other.stepName = row.stepName → other.id.number ≤ row.id.number

/-- A store lists the recent step executions of every instance that it has. -/
structure KnowsRecent (s : σ) : Prop where
  answers : ∀ id i, (perform (.findInstance id) s).answer = .ok (some i) →
    ∃ rows, (perform (.recentSteps id) s).answer = .ok rows
  lists : ∀ id rows, (perform (.recentSteps id) s).answer = .ok rows → ListsRecent s id rows

end Statement

namespace Memory

variable {m : Memory} (h : m.WellFormed) (id : InstanceId)

include h

/-- The step executions of an instance are those whose executions are its own. -/
theorem WellFormed.mem_stepsOfInstance_iff {row : StepExecution} :
    row ∈ m.stepsOfInstance id ↔ m.step? row.id = some row ∧
      ∃ e, m.execution? row.executionId = some e ∧ e.instanceId = id := by
  rw [h.step?_eq_some_iff, stepsOfInstance, List.mem_filter, Option.any_eq_true]
  simp

/-- From the last to the first, their numbers descend. -/
theorem WellFormed.descending_stepsOfInstance :
    (m.stepsOfInstance id).reverse.Pairwise fun a b => b.id.number < a.id.number := by
  have hsorted : SortedIds StepExecution.id (m.stepsOfInstance id) := h.steps_sorted.filter _
  exact List.pairwise_reverse.mpr hsorted

/-- A step execution of an instance is a recent one if it is the latest one of its name. -/
theorem WellFormed.mem_recentSteps_iff {row : StepExecution} :
    row ∈ m.recentSteps id ↔ row ∈ m.stepsOfInstance id ∧
      ∀ other ∈ m.stepsOfInstance id, other.stepName = row.stepName →
        other.id.number ≤ row.id.number := by
  rw [recentSteps, mem_distinctBy_iff (h.descending_stepsOfInstance id), List.mem_reverse]
  simp only [List.mem_reverse]

/-- The recent step executions are listed in descending order. -/
theorem WellFormed.descending_recentSteps :
    (m.recentSteps id).Pairwise fun a b => b.id.number < a.id.number :=
  (h.descending_stepsOfInstance id).sublist (distinctBy_sublist _ _)

omit h in
/-- Every step name that was used has a recent step execution. -/
theorem mem_names_recentSteps_iff {name : String} :
    name ∈ (m.recentSteps id).map StepExecution.stepName ↔
      ∃ row ∈ m.stepsOfInstance id, row.stepName = name := by
  rw [List.mem_map]
  constructor
  · intro ⟨row, hrow, hname⟩
    have hmem : row ∈ (m.stepsOfInstance id).reverse := mem_of_mem_distinctBy hrow
    exact ⟨row, List.mem_reverse.mp hmem, hname⟩
  · intro ⟨row, hrow, hname⟩
    obtain ⟨kept, hkept, hsame⟩ : ∃ kept ∈ m.recentSteps id, kept.stepName = row.stepName :=
      exists_mem_distinctBy (List.mem_reverse.mpr hrow)
    exact ⟨kept, hkept, hsame.trans hname⟩

end Memory

section Carried

variable {σ : Type} [LedgerStore σ] {Carries : σ → Memory → Prop}
  (hcarries : CarriesLedger Carries) {s : σ} {m : Memory} (hm : Carries s m)

include hcarries hm

/-- The step executions that a store finds for an instance are those of the ledger. -/
theorem isStepOf_iff {id : InstanceId} {row : StepExecution} :
    IsStepOf s id row ↔ row ∈ m.stepsOfInstance id := by
  rw [(hcarries.wellFormed hm).mem_stepsOfInstance_iff, IsStepOf,
    hcarries.findStep_eq_some_iff hm]
  simp only [hcarries.findExecution_eq_some_iff hm]

/-- The recent step executions of a ledger are what they should be. -/
theorem listsRecent (id : InstanceId) : ListsRecent s id (m.recentSteps id) where
  descending := (hcarries.wellFormed hm).descending_recentSteps id
  once := List.pairwise_map.mpr (pairwise_distinctBy _ _)
  names name := by
    rw [Memory.mem_names_recentSteps_iff]
    simp only [isStepOf_iff hcarries hm]
  latest row := by
    rw [(hcarries.wellFormed hm).mem_recentSteps_iff]
    simp only [isStepOf_iff hcarries hm]

/-- A store that carries a ledger knows the recent step executions of its instances. -/
theorem CarriesLedger.knowsRecent : KnowsRecent s where
  answers id i hi := by
    have hfound := (hcarries.findInstance_eq_some_iff hm).mp hi
    have hle : id.number ≤ m.lastInstance := (hcarries.wellFormed hm).instance?_le hfound
    have hledger := (hcarries.lookedUp (.recentSteps id) hm hle).1
    exact ⟨m.recentSteps id, hledger⟩
  lists id rows hrows := by
    have hledger := (hcarries.answered (.recentSteps id) hm nofun hrows).1
    have heq : m.recentSteps id = rows := Except.ok.inj hledger
    exact heq ▸ listsRecent hcarries hm id

end Carried

/-- After every run of operations on either store, the latest step execution of each step name of an
instance is known. -/
theorem knowsRecent_reached (operations : List Operation) :
    KnowsRecent (Operation.run Memory.empty operations) ∧
      ∀ {t : FileTree} {settings : StoreSettings} {place : Place} {l : OpenLedger},
        l.OpenedAt t settings place → KnowsRecent (Operation.run l operations) :=
  reached_of_carries (fun hcarries _ _ => hcarries.knowsRecent) operations

/-- An instance is run twice. Of the step that both executions have the second one is listed, of the
other step the only one. -/
theorem knowsRecent_atStart :
    let id : InstanceId := ⟨1, by decide, by decide⟩
    let first : ExecutionId := ⟨1, by decide, by decide⟩
    let second : ExecutionId := ⟨2, by decide, by decide⟩
    let copied : StepExecution := ⟨⟨2, by decide, by decide⟩, first, "copy", .starting, none,
      StepMetrics.zero, ⟨4⟩, none, none⟩
    let fetched : StepExecution := ⟨⟨3, by decide, by decide⟩, second, "fetch", .starting, none,
      Counters.const 7, ⟨6⟩, none, none⟩
    let reached := Operation.run OpenLedger.atStart [.call (.createInstance "load" "nightly" none),
      .call (.createExecution id .empty .starting ⟨1⟩),
      .call (.createStep first "fetch" StepMetrics.zero ⟨2⟩),
      .call (.createStep first "copy" StepMetrics.zero ⟨4⟩),
      .call (.createExecution id .empty .starting ⟨5⟩),
      .call (.createStep second "fetch" StepMetrics.zero ⟨6⟩),
      .call (.updateStep fetched.id { metrics := Counters.const 7 })]
    (perform (.recentSteps id) reached).answer = .ok [fetched, copied] ∧
      ListsRecent reached id [fetched, copied] := by
  intro id first second copied fetched reached
  have hanswer : (perform (.recentSteps id) reached).answer = .ok [fetched, copied] :=
    eq_ok_of_toOption (by decide +kernel)
  exact ⟨hanswer, ((knowsRecent_reached _).2 OpenLedger.openedAt_atStart).lists id _ hanswer⟩

end JobLedger
