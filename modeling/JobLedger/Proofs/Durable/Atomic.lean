import JobLedger.Durable.Store
import JobLedger.Proofs.Atomic
import JobLedger.Proofs.Durable.StepQueries

/-!
# Stores in a database fail in place

Whatever is in the database, and whoever has it locked: a call that writes does so as a whole and
reports it then, and all that may be refused is looked at before. A reader may leave traces in what
is around a database, but none in the database. A pair that was created is found if the database can
be read again once it has been written to.
-/

namespace JobLedger

open JobLedger.Action Text

namespace Database

section Queries

variable {σ : Type} [KeepsDatabase σ] {P : σ → Prop}
  (hturn : ∀ s, P s → P (KeepsDatabase.turn s))

include hturn

/-- A read keeps what is kept when readers have their turns. -/
theorem keeps_read {α : Type} (operation : String) (query : Database → Except StoreError α) :
    Keeps P (read operation query : Action StoreError σ α) := hturn

/-- A read of one row keeps what is kept when readers have their turns. -/
theorem keeps_readRow {α : Type} {entity : Entity} (operation : String) (id : Id entity)
    (query : Int → Database → Except StoreError α) :
    Keeps P (readRow operation id query : Action StoreError σ α) :=
  (Keeps.ofExcept _).bind fun _ => keeps_read hturn operation _

/-- A read of partitions keeps what is kept when readers have their turns. -/
theorem keeps_loadPartitions (root : InstanceId) (step : String) :
    Keeps P (loadPartitions root step : Action StoreError σ (List StepMetrics)) :=
  (keeps_read hturn _ _).bind fun _ => (Keeps.report _).bind fun _ => .answer _

/-- Calls that look something up keep what the turns of readers keep. -/
theorem keeps_performStored (call : Call) (hquery : call.IsQuery) :
    Keeps P (performStored call : Action StoreError σ call.Answer) := by
  cases call with
  | partitionMetrics root step => exact keeps_loadPartitions hturn root step
  | readiness => exact hturn
  | countInstances | pageInstances | externalInstances | runningExecutions | findPair =>
    exact keeps_read hturn _ _
  | findInstance | tagOfInstance | findExecution | executionsOf | instanceOf | parametersOf
  | tagOfExecution | latestExecution | findStep | stepsOf | recentSteps | findJobStatus
  | jobStatusOf | findStepStatus =>
    exact keeps_readRow hturn _ _ _
  | _ => exact hquery.elim

omit hturn [KeepsDatabase σ] in
/-- What is checked in front of a call changes nothing. -/
theorem keeps_ensureCall (call : Call) : Keeps P (ensureCall call) := by
  cases call with
  | createStep | createPair => exact keeps_ensureStepName _
  | _ => exact Keeps.answer ()

/-- A query keeps what is kept when readers have their turns. -/
theorem keeps_perform (call : Call) (hquery : call.IsQuery) :
    Keeps P (perform call : Action LedgerError σ call.Answer) :=
  (keeps_ensureCall call).bind fun _ s hs => keeps_performStored hturn call hquery s hs

end Queries

section Calls

variable {σ δ : Type} [KeepsDatabase σ] {kept : σ → δ}
  (hturn : ∀ s, kept (KeepsDatabase.turn s) = kept s)

include hturn

omit hturn in
/-- A write that fails is rolled back. -/
theorem atomic_write {α : Type} (operation : String)
    (update : Database → Except StoreError (α × Database)) :
    Atomic kept (write operation update : Action StoreError σ α) := .change _

omit hturn [KeepsDatabase σ] in
/-- What cannot be stored is refused before anything is written. -/
theorem atomic_checked {α β : Type} (result : Except StoreError α)
    {f : α → Action StoreError σ β} (hf : ∀ a, Atomic kept (f a)) :
    Atomic kept (ofExcept result >>= f) :=
  .bind_of_spares (fun _ => Keeps.ofExcept result) hf

omit hturn in
/-- A write is reported once it has succeeded. -/
theorem atomic_reported (operation : String)
    (update : Database → Except StoreError (Unit × Database)) (event : Event) :
    Atomic kept (do
      write operation update
      report event : Action StoreError σ Unit) :=
  .bind_of_answers (atomic_write operation update) fun _ => .report _

/-- Calls that look something up change nothing. -/
theorem spares_performStored (call : Call) (hquery : call.IsQuery) :
    Spares kept (performStored call : Action StoreError σ call.Answer) :=
  fun _ => keeps_performStored (fun s hs => (hturn s).trans hs) call hquery

/-- Whatever is written by a call is written at once, behind all checks. -/
theorem atomic_performStored (call : Call) :
    Atomic kept (performStored call : Action StoreError σ call.Answer) := by
  cases call with
  | createInstance | createPartition | purge => exact (atomic_write _ _).reported
  | createExecution id parameters status time =>
    exact atomic_checked _ fun _ => atomic_checked _ fun _ => (atomic_write _ _).reported
  | markStarted | setExecutionStatus | finalizeExecution =>
    exact atomic_checked _ fun _ => atomic_reported _ _ _
  | createStep id step metrics time =>
    exact atomic_checked _ fun _ => atomic_checked _ fun _ => atomic_checked _ fun _ =>
      (atomic_write _ _).reported
  | updateStep id update =>
    exact atomic_checked _ fun _ => atomic_checked _ fun _ => atomic_checked _ fun _ =>
      atomic_reported _ _ _
  | createJobStatus | createStepStatus =>
    exact atomic_checked _ fun _ => atomic_checked _ fun _ => (atomic_write _ _).reported
  | updateJobStatus | updateStepStatus | updatePair =>
    exact atomic_checked _ fun _ => atomic_checked _ fun _ => atomic_write _ _
  | incrementStartCount id => exact atomic_checked _ fun _ => atomic_write _ _
  | createPair id step => exact atomic_checked _ fun _ => atomic_reported _ _ _
  | _ => exact .of_spares (spares_performStored hturn _ trivial)

/-- The calls on a store in a database fail in place. -/
theorem atomicStore : AtomicStore kept where
  atomic call := .bind_of_spares (fun _ => keeps_ensureCall call) fun _ =>
    (atomic_performStored hturn call).mapError
  spares call hquery _ := keeps_perform (fun s hs => (hturn s).trans hs) call hquery

end Calls

/-! ## Pairs that were created -/

/-- A pair that was created is found, without tokens. -/
theorem findPair_of_createPair {id : InstanceId} {step : String} {db next : Database} {u : Unit}
    (h : createPair id step (Frame.framed none) db = .ok (u, next)) :
    next ≠ .blank ∧ findPair id step next = .ok (some ⟨none, none⟩) := by
  obtain ⟨checkpoints, -, h⟩ := bind_eq_ok_iff.mp h
  split at h
  · exact nomatch h
  · next hmissing =>
    obtain rfl := (Prod.mk.inj (Except.ok.inj h)).2
    refine ⟨fun hblank => (nomatch congrArg Database.checkpoints hblank), ?_⟩
    simp only [Bool.or_eq_true, not_or, Bool.not_eq_true, Option.isSome_eq_false_iff,
      Option.isNone_iff_eq_none] at hmissing
    have hkeys : keyCell (.ofPair id step .reader) ≠ keyCell (.ofPair id step .writer) :=
      fun h => CheckpointKey.reader_ne_writer id step (Cell.text.inj h)
    obtain ⟨hreader, hwriter⟩ := lookup_append_pair hkeys hmissing.1 hmissing.2
      (Cell.blob (Frame.framed none)) (.blob (Frame.framed none))
    rw [findPair]
    dsimp only
    rw [Memory.need_some, ok_bind, hreader, hwriter, Memory.tokenCell_blob, ok_bind, ok_bind,
      Memory.tokenOf_framed fits_none, ok_bind, Memory.tokenOf_framed fits_none, ok_bind]

/-- A pair is found only where there is a schema. -/
theorem ne_blank_of_findPair {id : InstanceId} {step : String} {db : Database}
    {found : Option CheckpointPair} (h : findPair id step db = .ok found) : db ≠ .blank := by
  rintro rfl
  exact nomatch h

/-- Creating a pair writes the database with the pair. -/
theorem addPair_eq_ok {σ : Type} [KeepsDatabase σ] {id : InstanceId} {step : String} {s : σ}
    {u : Unit} (h : (addPair id step s).answer = .ok u) :
    ∃ operation found next, KeepsDatabase.writable s operation = .ok found ∧
      createPair id step (Frame.framed none) found = .ok ((), next) ∧
      (addPair id step s).state = KeepsDatabase.keep s next := by
  have hadd : (addPair id step : Action StoreError σ Unit) =
      (write "create checkpoint pair" (createPair id step (Frame.framed none)) >>= fun _ =>
        report (.checkpointPairStored id step)) := by
    rw [addPair, tokenBlob_of_fits fits_none]
    rfl
  rw [hadd] at h ⊢
  obtain ⟨u', hwrite, -, hstate⟩ := bind_eq_ok h
  obtain ⟨found, hfound, hcreate⟩ := bind_eq_ok_iff.mp (change_eq_ok hwrite)
  obtain ⟨⟨u'', next⟩, hnext, hkeep⟩ := bind_eq_ok_iff.mp hcreate
  refine ⟨_, found, next, hfound, hnext, ?_⟩
  exact hstate.trans (Prod.mk.inj (Except.ok.inj hkeep)).2.symm

end Database

/-- Looking for a pair is one query, and takes the turn of a reader. -/
theorem Database.perform_findPair {σ : Type} [KeepsDatabase σ] (id : InstanceId) (step : String)
    (s : σ) : LedgerStore.perform (.findPair id step) s =
      ⟨(KeepsDatabase.readable s "get checkpoint pair" >>= findPair id step).mapError
        StoreError.toLedger, KeepsDatabase.turn s, []⟩ := rfl

/-- A database that was read, and was written to afterwards, is read as it was written. -/
def Rereads {σ : Type} [KeepsDatabase σ] (s : σ) : Prop :=
  ∀ (reading writing : String) (seen found next : Database),
    KeepsDatabase.readable s reading = .ok seen → seen ≠ .blank →
      KeepsDatabase.writable (KeepsDatabase.turn s) writing = .ok found → next ≠ .blank →
        KeepsDatabase.readable (KeepsDatabase.keep (KeepsDatabase.turn s) next) reading = .ok next

/-- Where a database is read as it was written, a pair that was created is found. -/
theorem Rereads.findsCreated {σ : Type} [KeepsDatabase σ] {s : σ} (h : Rereads s) (id : InstanceId)
    (step : String) : FindsCreated id step s := by
  intro hlooked hcreated
  rw [Database.perform_findPair] at hlooked hcreated ⊢
  obtain ⟨seen, hseen, hfound⟩ := bind_eq_ok_iff.mp (eq_ok_of_mapError hlooked)
  rcases ensureStepName_cases step with hname | ⟨fault, hfault⟩
  · have hcall : (perform (.createPair id step) : Action LedgerError σ Unit) =
        mapError StoreError.toLedger (Database.addPair id step) := ensureStepName_bind (hname σ)
    rw [hcall] at hcreated ⊢
    obtain ⟨operation, found, next, hwritable, hcreate, hstate⟩ :=
      Database.addPair_eq_ok (eq_ok_of_mapError hcreated)
    obtain ⟨hnext, hpair⟩ := Database.findPair_of_createPair hcreate
    have hagain := h _ _ _ _ _ hseen (Database.ne_blank_of_findPair hfound) hwritable hnext
    rw [Database.perform_findPair]
    dsimp only [mapError]
    rw [hstate, hagain, ok_bind, hpair]
    exact ⟨_, rfl⟩
  · have hcall : (perform (.createPair id step) (KeepsDatabase.turn s)).answer = .error fault := by
      change ((ensureStepName step >>= fun _ => mapError StoreError.toLedger
        (Database.addPair id step)) (KeepsDatabase.turn s)).answer = _
      rw [hfault σ]
      rfl
    exact nomatch hcall.symm.trans hcreated

end JobLedger
