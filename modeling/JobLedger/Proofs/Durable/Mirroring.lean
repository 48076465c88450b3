import JobLedger.Proofs.Durable.Serving

/-!
# Calls on a store that mirror a ledger

Every call on a store in a database that holds a ledger is matched with the call on the ledger in
memory: first those whose step name has been checked, then all of them.
-/

namespace JobLedger

open JobLedger.Action Text

namespace Database

variable {σ : Type} [KeepsDatabase σ] {Holds : σ → Memory → Prop} {s : σ} {m : Memory}

/-- A call is let through, or it is refused for its step name in whatever store. -/
theorem ensureCall_cases (call : Call) :
    (∀ τ : Type, (ensureCall call : Action LedgerError τ Unit) = answer ()) ∨
      ∃ e, (∀ τ : Type, (ensureCall call : Action LedgerError τ Unit) = fail e) ∧
        ∀ m : Memory, Memory.whole call m = ⟨.error e, m, []⟩ := by
  cases call with
  | createStep id step metrics time =>
    refine (ensureStepName_cases step).imp_right fun ⟨e, hfail⟩ => ⟨e, hfail, fun m => ?_⟩
    rw [Memory.whole, hfail]
    rfl
  | createPair id step =>
    refine (ensureStepName_cases step).imp_right fun ⟨e, hfail⟩ => ⟨e, hfail, fun m => ?_⟩
    rw [Memory.whole, hfail]
    rfl
  | _ => exact .inl fun τ => rfl

/-- A call that is let through goes to the database. -/
theorem perform_of_ensured {call : Call}
    (hname : (ensureCall call : Action LedgerError σ Unit) = answer ()) (s : σ) :
    LedgerStore.perform call s = mapError StoreError.toLedger (performStored call) s := by
  change (ensureCall call >>= fun _ => mapError StoreError.toLedger (performStored call)) s = _
  rw [hname]
  rfl

section Mirrored

variable (hserves : Serves Holds) (h : m.WellFormed) (hs : m.Storable) (hholds : Holds s m)

include hserves h hs hholds

/-- A call whose step name has been checked ends as the call on the ledger does. -/
theorem mirrors_performStored (call : Call)
    (hname : (ensureCall call : Action LedgerError Memory Unit) = answer ())
    (hmetrics : ∀ root step, call ≠ .partitionMetrics root step) :
    Mirrors Holds m call.Fits (mapError StoreError.toLedger (performStored call) s)
      (Memory.whole call m) := by
  cases call with
  | createInstance name appTag definition =>
    exact hserves.mirrors_write_tail hs hholds (fun _ _ => ⟨rfl, rfl⟩)
      (m.follows_createInstance h hs name appTag definition)
  | createPartition name appTag =>
    exact hserves.mirrors_write_tail hs hholds (fun _ _ => ⟨rfl, rfl⟩)
      (m.follows_createInstance h hs name.encode appTag none)
  | findInstance id =>
    rw [Memory.whole]
    refine hserves.mirrors_readRow hs hholds (fun hfits => hfits) ?_
    exact sameAnswer_ok (m.findInstance_eq h id)
  | tagOfInstance id =>
    rw [Memory.whole]
    refine hserves.mirrors_readRow hs hholds (fun hfits => hfits) ?_
    exact m.tagOfInstance_eq id
  | countInstances name appTag =>
    rw [Memory.whole]
    refine hserves.mirrors_read hs hholds ?_
    exact sameAnswer_ok (m.countInstances_eq name appTag)
  | pageInstances name appTag start count =>
    rw [Memory.whole]
    refine hserves.mirrors_read hs hholds ?_
    exact sameAnswer_ok (m.pageInstances_eq h hs name appTag start count)
  | externalInstances =>
    rw [Memory.whole]
    refine hserves.mirrors_read hs hholds ?_
    exact sameAnswer_ok (m.externalInstances_eq h)
  | createExecution id parameters status time =>
    refine .of_row hholds (fun hfits => hfits.1)
      (.of_blob hholds (fun hfits => hfits.2) fun hblob => ?_)
    exact hserves.mirrors_write_same hs hholds (fun _ _ => ⟨rfl, rfl⟩)
      (m.follows_createExecution h hs id hblob status time)
  | markStarted id time =>
    refine .of_row hholds (fun hfits => hfits) ?_
    exact hserves.mirrors_write_same hs hholds (fun _ _ => ⟨rfl, rfl⟩)
      (m.follows_changeExecution hs _ id (fun _ => rfl) (fun _ => rfl) fun _ => rfl)
  | setExecutionStatus id status time =>
    refine .of_row hholds (fun hfits => hfits) ?_
    exact hserves.mirrors_write_same hs hholds (fun _ _ => ⟨rfl, rfl⟩)
      (m.follows_changeExecution hs _ id (fun _ => rfl) (fun _ => rfl) fun _ => rfl)
  | finalizeExecution id status exitStatus time =>
    refine .of_row hholds (fun hfits => hfits) ?_
    exact hserves.mirrors_write_same hs hholds (fun _ _ => ⟨rfl, rfl⟩)
      (m.follows_changeExecution hs _ id (fun _ => rfl) (fun _ => rfl) fun _ => rfl)
  | findExecution id =>
    rw [Memory.whole]
    refine hserves.mirrors_readRow hs hholds (fun hfits => hfits) ?_
    exact sameAnswer_ok (m.findExecution_eq h hs id)
  | executionsOf id =>
    rw [Memory.whole]
    refine hserves.mirrors_readRow hs hholds (fun hfits => hfits) ?_
    exact sameAnswer_ok (m.executionsOf_eq h hs id)
  | runningExecutions jobName =>
    rw [Memory.whole]
    refine hserves.mirrors_read hs hholds ?_
    exact sameAnswer_ok (m.runningExecutions_eq h jobName)
  | instanceOf id =>
    rw [Memory.whole]
    refine hserves.mirrors_readRow hs hholds (fun hfits => hfits) ?_
    exact m.instanceOf_eq id
  | parametersOf id =>
    rw [Memory.whole]
    refine hserves.mirrors_readRow hs hholds (fun hfits => hfits) ?_
    exact m.parametersOf_eq h hs id
  | tagOfExecution id =>
    rw [Memory.whole]
    refine hserves.mirrors_readRow hs hholds (fun hfits => hfits) ?_
    exact m.tagOfExecution_eq h id
  | latestExecution id =>
    rw [Memory.whole]
    refine hserves.mirrors_readRow hs hholds (fun hfits => hfits) ?_
    exact sameAnswer_ok (m.latestExecution_eq h id)
  | createStep id step metrics time =>
    rw [Memory.whole, ensureStepName_bind hname]
    refine .of_row hholds (fun hfits => hfits.1) (.of_counts hholds (fun hfits => hfits.2)
      (.of_token hholds (fun _ => fits_none) fun _ => ?_))
    exact hserves.mirrors_write_same hs hholds (fun _ _ => ⟨rfl, rfl⟩)
      (m.follows_createStep h hs id step metrics time)
  | updateStep id update =>
    refine .of_row hholds (fun hfits => hfits.1) (.of_counts hholds (fun hfits => hfits.2.1)
      (.of_token hholds (fun hfits => hfits.2.2) fun huserData => ?_))
    exact hserves.mirrors_write_same hs hholds (fun _ _ => ⟨rfl, rfl⟩)
      (m.follows_updateStep h hs id huserData)
  | findStep id =>
    rw [Memory.whole]
    refine hserves.mirrors_readRow hs hholds (fun hfits => hfits) ?_
    exact sameAnswer_ok (m.findStep_eq h hs id)
  | stepsOf id =>
    rw [Memory.whole]
    refine hserves.mirrors_readRow hs hholds (fun hfits => hfits) ?_
    exact sameAnswer_ok (m.stepsOf_eq hs id)
  | recentSteps id =>
    rw [Memory.whole]
    refine hserves.mirrors_readRow hs hholds (fun hfits => hfits) ?_
    exact sameAnswer_ok (m.recentSteps_eq h hs id)
  | partitionMetrics root step => exact absurd rfl (hmetrics root step)
  | purge tag =>
    rw [Memory.whole]
    refine hserves.mirrors_write_same hs hholds ?_ ?_
    · exact fun _ _ => ⟨rfl, rfl⟩
    exact m.follows_purge h hs tag
  | readiness =>
    have hready := hserves.isReady hholds "readiness read"
    exact .inl ⟨congrArg (Except.mapError StoreError.toLedger) hready, hserves.turn hholds, hs⟩
  | createJobStatus id =>
    refine .of_row hholds (fun hfits => hfits)
      (.of_blob hholds (fun _ => hasBlob_fresh_jobStatus id) fun _ => ?_)
    exact hserves.mirrors_write_tail hs hholds (fun _ _ => ⟨rfl, rfl⟩)
      (m.follows_createJobStatus h hs id)
  | findJobStatus id =>
    rw [Memory.whole]
    refine hserves.mirrors_readRow hs hholds (fun hfits => hfits) ?_
    exact sameAnswer_ok (m.findJobStatus_eq h hs id)
  | updateJobStatus status =>
    refine .of_row hholds (fun hfits => hfits.1)
      (.of_blob hholds (fun hfits => hfits.2) fun hblob => ?_)
    exact hserves.mirrors_write hs hholds (m.follows_updateJobStatus h hs hblob)
  | jobStatusOf id =>
    rw [Memory.whole]
    refine hserves.mirrors_readRow hs hholds (fun hfits => hfits) ?_
    exact m.jobStatusOf_eq h hs id
  | createStepStatus id =>
    refine .of_row hholds (fun hfits => hfits)
      (.of_blob hholds (fun _ => hasBlob_fresh_stepStatus id) fun _ => ?_)
    exact hserves.mirrors_write_tail hs hholds (fun _ _ => ⟨rfl, rfl⟩)
      (m.follows_createStepStatus h hs id)
  | findStepStatus id step =>
    rw [Memory.whole]
    refine hserves.mirrors_readRow hs hholds (fun hfits => hfits) ?_
    exact sameAnswer_ok (m.findStepStatus_eq h hs id step)
  | updateStepStatus status =>
    refine .of_row hholds (fun hfits => hfits.1)
      (.of_blob hholds (fun hfits => hfits.2) fun hblob => ?_)
    exact hserves.mirrors_write hs hholds (m.follows_updateStepStatus h hs hblob)
  | incrementStartCount id =>
    exact .of_row hholds (fun hfits => hfits)
      (hserves.mirrors_write hs hholds (m.follows_incrementStartCount h hs id))
  | createPair id step =>
    rw [Memory.whole, ensureStepName_bind hname]
    refine .of_token hholds (fun _ => fits_none) fun _ => ?_
    exact hserves.mirrors_write_same hs hholds (fun _ _ => ⟨rfl, rfl⟩)
      (m.follows_createPair hs id step)
  | findPair id step =>
    rw [Memory.whole]
    refine hserves.mirrors_read hs hholds ?_
    exact m.findPair_eq h hs id step
  | updatePair id step pair =>
    refine .of_token hholds (fun hfits => hfits.1) fun hreader =>
      .of_token hholds (fun hfits => hfits.2) fun hwriter => ?_
    exact hserves.mirrors_write hs hholds (m.follows_updatePair hs id step hreader hwriter)

/-- A call ends as the call on the ledger does, as far as its request and what it leaves fit. -/
theorem mirrors_perform (call : Call) (hmetrics : ∀ root step, call ≠ .partitionMetrics root step) :
    Mirrors Holds m call.Fits (LedgerStore.perform call s) (LedgerStore.perform call m) := by
  rcases ensureCall_cases call with hname | ⟨e, hstored, hkept⟩
  · rw [perform_of_ensured (hname σ), Memory.perform_eq]
    exact mirrors_performStored hserves h hs hholds call (hname Memory) hmetrics
  · have hperform : (LedgerStore.perform call : Action LedgerError σ call.Answer) s =
        ⟨.error e, s, []⟩ := by
      change (ensureCall call >>= fun _ => mapError StoreError.toLedger (performStored call)) s = _
      rw [hstored]
      rfl
    have hmemory : LedgerStore.perform call m = ⟨.error e, m, []⟩ := by
      rw [Memory.perform_eq]
      exact hkept m
    rw [hperform, hmemory]
    exact .inl ⟨rfl, hholds, hs⟩

omit h hs in
/-- The counts of partitions are read and reported, and nothing is changed. -/
theorem state_loadPartitions (root : InstanceId) (step : String) :
    (loadPartitions root step s).state = KeepsDatabase.turn s := by
  have hread := hserves.read_apply hholds "partition step metrics" (partitionMetrics root step)
  rw [loadPartitions]
  cases hrows : partitionMetrics root step m.database with
  | error e =>
    rw [hrows] at hread
    rw [(bind_error (congrArg Outcome.answer hread) _).2, hread]
  | ok rows =>
    rw [hrows] at hread
    rw [(bind_ok (congrArg Outcome.answer hread) _).2, hread]
    rfl

omit h hs in
/-- The counts that are read are the answer. -/
theorem answer_loadPartitions {root : InstanceId} {step : String} {rows : List StepMetrics}
    (hrows : partitionMetrics root step m.database = .ok rows) :
    (loadPartitions root step s).answer = .ok rows := by
  have hread := hserves.read_apply hholds "partition step metrics" (partitionMetrics root step)
  rw [hrows] at hread
  rw [loadPartitions, (bind_ok (congrArg Outcome.answer hread) _).1]
  rfl

/-- Whatever the call, the store holds a ledger afterwards: the one that the call on the ledger
leaves, or the one that was there. -/
theorem holds_perform (call : Call) :
    Holds (LedgerStore.perform call s).state (LedgerStore.perform call m).state ∧
        (LedgerStore.perform call m).state.Storable ∨
      Holds (LedgerStore.perform call s).state m := by
  by_cases hmetrics : ∃ root step, call = .partitionMetrics root step
  · obtain ⟨root, step, rfl⟩ := hmetrics
    have hstate := state_loadPartitions hserves hholds root step
    refine .inr ?_
    change Holds (loadPartitions root step s).state m
    rw [hstate]
    exact hserves.turn hholds
  · rcases mirrors_perform hserves h hs hholds call fun root step heq => hmetrics ⟨root, step, heq⟩
      with hagrees | ⟨hrefuses, -⟩
    · exact .inl ⟨hagrees.state, hagrees.storable⟩
    · exact .inr hrefuses.state

end Mirrored

end Database

end JobLedger
