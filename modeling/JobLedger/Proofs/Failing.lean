import JobLedger.Proofs.Files.Atomic
import JobLedger.Proofs.Memory.Atomic

/-!
# Operations that fail

An operation that fails leaves every table and every number of the ledger as it was, whatever was in
them: in memory, in a file with any database in it and any lock on it, and in a session on such a
file. The creation of partitions one by one is left out. Making sure of a pair looks up what it has
created; for a session that asks for files which nobody else has put anything beside.
-/

namespace JobLedger

/-- If an operation fails, what is kept is as it was. -/
def Operation.FailsInPlace {σ δ : Type} [LedgerStore σ] (kept : σ → δ) (s : σ)
    (operation : Operation) : Prop :=
  ∀ e, (operation.perform s).answer = .error e → kept (operation.perform s).state = kept s

/-- Operations fail in place on a store on which calls do. -/
theorem AtomicStore.failsInPlace {σ δ : Type} [LedgerStore σ] {kept : σ → δ}
    (hstore : AtomicStore kept) {s : σ} {operation : Operation} (hsingle : ¬ operation.IsSeries)
    (hfinds : ∀ id step, operation.ensured? = some (id, step) → FindsCreated id step s) :
    operation.FailsInPlace kept s := by
  intro e he
  cases hensured : operation.ensured? with
  | none => exact Operation.atomic_perform hstore hsingle hensured s e he
  | some key =>
    cases operation with
    | ensureCheckpoint id step =>
      exact Checkpoint.ensure_fails_in_place hstore (hfinds id step rfl) he
    | _ => exact nomatch hensured

/-- An operation that fails leaves the ledger as it was, wherever the ledger is kept and whatever is
in it. -/
theorem failsInPlace_everywhere (operation : Operation) (hsingle : ¬ operation.IsSeries) :
    (∀ m : Memory, operation.FailsInPlace id m) ∧
      (∀ c : Cabinet, operation.FailsInPlace id c) ∧
      (∀ f : LedgerFile, operation.FailsInPlace id f) ∧
      ∀ l : OpenLedger, (operation.ensured?.isSome → l.HasOwnFiles) →
        operation.FailsInPlace OpenLedger.database l := by
  refine ⟨fun m => ?_, fun c => ?_, fun f => ?_, fun l hown => ?_⟩
  · exact Memory.atomicStore.failsInPlace hsingle fun id step _ => m.findsCreated id step
  · exact Cabinet.atomicStore.failsInPlace hsingle fun id step _ => c.findsCreated id step
  · exact LedgerFile.atomicStore.failsInPlace hsingle fun id step _ =>
      f.rereads.findsCreated id step
  · refine OpenLedger.atomicStore.failsInPlace hsingle fun id step hensured => ?_
    have hfiles : l.HasOwnFiles := hown (by rw [hensured]; rfl)
    exact (OpenLedger.rereads hfiles).findsCreated id step

/-- One half of a pair is in a file; making sure of the pair fails, and leaves the file. The same
operation leaves a new ledger if it fails. -/
theorem failsInPlace_halfPair :
    let nightly : InstanceId := ⟨1, by decide, by decide⟩
    let operation := Operation.ensureCheckpoint nightly "copy"
    let reader := Database.keyCell (.ofPair nightly "copy" .reader)
    let f : LedgerFile :=
      { LedgerFile.blank with
        database := { Memory.empty.database with
          checkpoints := some [(reader, .blob (Frame.framed none))] } }
    (operation.perform f).answer.isOk = false ∧ (operation.perform f).state = f ∧
      operation.FailsInPlace OpenLedger.database OpenLedger.atStart := by
  intro nightly operation reader f
  obtain ⟨-, -, hfile, hsession⟩ := failsInPlace_everywhere operation id
  have hfails : (operation.perform f).answer.isOk = false := by decide +kernel
  obtain ⟨place, readers, g, hsession', hown, -⟩ := OpenLedger.openedAt_atStart.holds
  refine ⟨hfails, ?_, hsession OpenLedger.atStart fun _ => ?_⟩
  · cases hanswer : (operation.perform f).answer with
    | ok pair =>
      rw [hanswer] at hfails
      exact nomatch hfails
    | error e => exact hfile f e hanswer
  · rw [OpenLedger.HasOwnFiles, hsession']
    exact fun _ => ⟨g, hown⟩

end JobLedger
