import JobLedger.Proofs.Durable.Mirroring
import JobLedger.Proofs.Files.Opening

/-!
# Sessions that carry a ledger

A session on a new file carries a well-formed ledger at every point of a run: its database is that of
the ledger, and a call changes both alike where all fits, or is refused.
-/

namespace JobLedger

/-- The database that a session works on. -/
def OpenLedger.database (l : OpenLedger) : Database :=
  match l.session with
  | .ledger home .. => (l.files.ledgerAt home).database
  | .own db | .fixed db => db

/-- A session has the database of a well-formed ledger to itself. -/
structure OpenLedger.Carries (l : OpenLedger) (m : Memory) : Prop where
  holds : l.Holds m
  wellFormed : m.WellFormed
  storable : m.Storable

namespace OpenLedger.Carries

variable {l : OpenLedger} {m : Memory} (h : l.Carries m)

include h

theorem database_eq : l.database = m.database := by
  obtain ⟨place, readers, f, hsession, hundisturbed, hdatabase⟩ := h.holds
  rw [OpenLedger.database, hsession]
  dsimp only
  rw [hundisturbed.ledgerAt, hdatabase]

/-- A call that fits, and leaves what fits, is answered as by the ledger. -/
theorem agrees (call : Call) (hmetrics : ∀ root step, call ≠ .partitionMetrics root step)
    (hfits : call.Fits) (hnext : (perform call m).state.Storable) :
    (perform call l).answer = (perform call m).answer ∧
      (perform call l).state.Carries (perform call m).state := by
  rcases Database.mirrors_perform serves h.wellFormed h.storable h.holds call hmetrics with
    hagrees | ⟨-, hunfit⟩
  · exact ⟨hagrees.answer, hagrees.state, Memory.keeps_wellFormed call m h.wellFormed, hnext⟩
  · exact absurd ⟨hfits, hnext⟩ hunfit

/-- The counts of partitions are those that the database of the ledger gives. -/
theorem answer_partitionMetrics {root : InstanceId} {step : String} {rows : List StepMetrics}
    (hrows : Database.partitionMetrics root step m.database = .ok rows) :
    (perform (.partitionMetrics root step) l).answer = .ok rows := by
  change (Action.mapError StoreError.toLedger (Database.loadPartitions root step) l).answer = _
  rw [Action.mapError, Database.answer_loadPartitions serves h.holds hrows]
  rfl

/-- Asking for the counts of partitions leaves the ledger that the session carries. -/
theorem carries_partitionMetrics (root : InstanceId) (step : String) :
    (perform (.partitionMetrics root step) l).state.Carries m := by
  refine ⟨?_, h.wellFormed, h.storable⟩
  change (Database.loadPartitions root step l).state.Holds m
  rw [Database.state_loadPartitions serves h.holds]
  exact serves.turn h.holds

/-- After a call the session carries the ledger that the call leaves, or the one that was there. -/
theorem perform_cases (call : Call) :
    (perform call l).state.Carries (perform call m).state ∨ (perform call l).state.Carries m := by
  rcases Database.holds_perform serves h.wellFormed h.storable h.holds call with
    ⟨hnext, hstorable⟩ | hsame
  · exact .inl ⟨hnext, Memory.keeps_wellFormed call m h.wellFormed, hstorable⟩
  · exact .inr ⟨hsame, h.wellFormed, h.storable⟩

end OpenLedger.Carries

namespace OpenLedger.OpenedAt

variable {t : FileTree} {settings : StoreSettings} {place : Place} {l : OpenLedger}
  (h : l.OpenedAt t settings place)

include h

theorem carries : l.Carries Memory.empty :=
  ⟨h.holds, Memory.wellFormed_empty, Memory.storable_empty⟩

/-- What a session on a new file has come to by operations carries a ledger. -/
theorem carries_run (operations : List Operation) : ∃ m, (Operation.run l operations).Carries m := by
  refine Operation.run_induction (P := fun l : OpenLedger => ∃ m, l.Carries m) ?_ ⟨_, h.carries⟩
    operations
  rintro call l ⟨m, hm⟩
  exact (hm.perform_cases call).elim (fun hnext => ⟨_, hnext⟩) fun hsame => ⟨m, hsame⟩

end OpenLedger.OpenedAt

end JobLedger
