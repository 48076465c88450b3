import JobLedger.Proofs.Desk
import JobLedger.Proofs.Memory.Numbering

/-!
# Numbers of identifiers

Either store numbers the instances, the executions and the step executions that it creates from one
on, each kind for itself. A number is not given out again once its row has been purged, a creation that
fails takes none, and a store in a file goes on counting when it is opened again.
-/

namespace JobLedger

theorem Memory.extends_numbers : CallLog.Extends Memory.Numbers :=
  fun _ h hstep => h.step hstep

/-- On either store the creations of each kind that succeed are numbered from one on without a gap,
whatever other operations there are in between, and however often a store in a file is opened again
by its path. -/
theorem isNumbered_reached :
    (∀ operations, (Operation.log Memory.empty operations).IsNumbered) ∧
      ∀ {t : FileTree} {settings : StoreSettings} {place : Place} {l : OpenLedger},
        l.OpenedAt t settings place → ∀ turns : List Desk.Turn,
          (∀ other, .reopen other ∈ turns → other.path = settings.path) →
            (Desk.run ⟨t, none, []⟩ (.reopen settings :: turns)).log.IsNumbered := by
  constructor
  · intro operations
    obtain ⟨m, -, h⟩ := exists_bearsLogged Memory.carriesLedger Memory.extends_numbers
      Memory.Numbers.empty ⟨rfl, Memory.wellFormed_empty⟩ operations
    exact h.isNumbered
  · intro t settings place l hl turns hpath
    obtain ⟨m, -, -, -, h⟩ := Desk.bears_run hl Memory.extends_numbers Memory.Numbers.empty hpath
    exact h.isNumbered

/-- The only instance is purged with what belongs to it, the store is opened again with another journal
after a refusal to do so, and an execution of an instance that is gone is asked for. -/
theorem isNumbered_atStart :
    let first : InstanceId := ⟨1, by decide, by decide⟩
    let second : InstanceId := ⟨2, by decide, by decide⟩
    let execution : ExecutionId := ⟨1, by decide, by decide⟩
    let settings : StoreSettings := { path := "ledger.db" }
    let turns : List Desk.Turn :=
      [.operation (.call (.createInstance "load" "nightly" none)),
        .operation (.call (.createExecution first .empty .starting ⟨1⟩)),
        .operation (.call (.createStep execution "copy" StepMetrics.zero ⟨2⟩)),
        .operation (.call (.purge "nightly")), .reopen { settings with poolSize := 0 },
        .reopen { settings with journalMode := .delete },
        .operation (.call (.createExecution first .empty .starting ⟨3⟩)),
        .operation (.call (.createInstance "load" "nightly" none)),
        .operation (.call (.createExecution second .empty .starting ⟨4⟩))]
    let log := (Desk.run ⟨.start, none, []⟩ (.reopen settings :: turns)).log
    log.IsNumbered ∧ log.instances.map (fun i => i.id.number) = [1, 2] ∧
      log.executions.map (fun e => e.id.number) = [1, 2] ∧
        log.steps.map (fun row => row.id.number) = [1] := by
  intro first second execution settings turns log
  have hpath : ∀ other, .reopen other ∈ turns → other.path = settings.path := by
    intro other hother
    simp only [turns, List.mem_cons, List.not_mem_nil, or_false, reduceCtorEq, false_or,
      Desk.Turn.reopen.injEq] at hother
    rcases hother with rfl | rfl <;> rfl
  exact ⟨isNumbered_reached.2 OpenLedger.openedAt_atStart turns hpath, by decide +kernel,
    by decide +kernel, by decide +kernel⟩

end JobLedger
