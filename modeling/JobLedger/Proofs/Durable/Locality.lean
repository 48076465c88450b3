import JobLedger.Proofs.Durable.Contents
import JobLedger.Proofs.Durable.Mirroring
import JobLedger.Proofs.Memory.Contents

/-!
# Shares in a database

A store in a database answers a call that stays in a share from the part of the ledger that the share
has, as the ledger itself does. What does not fit is refused for the request alone; only the record
with the next count of starts may be too long although the request fits, and it is made of the record
that is in the share.
-/

namespace JobLedger

open JobLedger.Action Text

/-! ## Requests that do not fit -/

/-- An action fails with the same error in every state. -/
def RefusesAlike {ε σ α : Type} (x : Action ε σ α) : Prop := ∃ e, ∀ s, (x s).answer = .error e

namespace RefusesAlike

variable {σ α β : Type}

/-- What is worked out before the state is looked at gives an error, or what comes next does. -/
theorem bind {ε : Type} {x : Except ε α} {f : α → Action ε σ β}
    (h : ∀ a, x = .ok a → RefusesAlike (f a)) : RefusesAlike (ofExcept x >>= f) := by
  cases x with
  | error e => exact ⟨e, fun _ => rfl⟩
  | ok a =>
    obtain ⟨e, he⟩ := h a rfl
    exact ⟨e, fun s => (bind_ok rfl f).1.trans (he s)⟩

/-- A number that fits no row is refused in every state. -/
theorem of_row {entity : Entity} {id : Id entity} {f : Int → Action StoreError σ α}
    (h : ¬ (id.number : Int) < signedLimit) : RefusesAlike (ofExcept (rowOf id) >>= f) :=
  bind fun _ hrow => absurd (rowOf_eq_ok_iff.mp hrow).1 h

/-- A refusal stays one in the terms of the ledger. -/
theorem toLedger {x : Action StoreError σ α} (h : RefusesAlike x) :
    RefusesAlike (mapError StoreError.toLedger x) := by
  obtain ⟨e, he⟩ := h
  exact ⟨e.toLedger, fun s => congrArg (Except.mapError StoreError.toLedger) (he s)⟩

end RefusesAlike

/-- A record with a blob fits a frame. -/
theorem hasBlob_of_blobOf {α : Type} [JsonForm α] {sort : String} {a : α} {octets : Octets}
    (h : blobOf (Codec.json α) sort a = .ok octets) : HasBlob a := by
  by_contra hnot
  rw [blobOf_of_not_hasBlob hnot] at h
  exact nomatch h

/-- A token with a blob fits a frame. -/
theorem fits_of_tokenBlob {token : Option Octets} {octets : Octets}
    (h : tokenBlob token = .ok octets) : Frame.Fits token := by
  by_contra hnot
  rw [tokenBlob_of_not_fits hnot] at h
  exact nomatch h

namespace Database

variable {σ : Type} [KeepsDatabase σ] {share : Share} {call : Call}

/-- A call that stays in a share and does not fit is refused before the database is looked at. -/
theorem refusesAlike_performStored (hcall : call.StaysIn share) (hfits : ¬ call.Fits) :
    RefusesAlike (performStored call : Action StoreError σ call.Answer) := by
  cases call with
  | markStarted id | setExecutionStatus id | finalizeExecution id | jobStatusOf id
  | createStepStatus id | incrementStartCount id | createJobStatus id | findJobStatus id
  | findStepStatus id => exact .of_row hfits
  | updateStep id update =>
    exact .bind fun _ hrow => .bind fun _ hcounters => .bind fun _ huserData =>
      absurd ⟨(rowOf_eq_ok_iff.mp hrow).1, countsFit_of_counterCells hcounters,
        fits_of_tokenBlob huserData⟩ hfits
  | updateJobStatus status | updateStepStatus status =>
    exact .bind fun _ hrow => .bind fun _ hblob =>
      absurd ⟨(rowOf_eq_ok_iff.mp hrow).1, hasBlob_of_blobOf hblob⟩ hfits
  | updatePair id step pair =>
    exact .bind fun _ hreader => .bind fun _ hwriter =>
      absurd ⟨fits_of_tokenBlob hreader, fits_of_tokenBlob hwriter⟩ hfits
  | createPair id step | findPair id step => exact absurd trivial hfits
  | _ => exact hcall.elim

/-- A call whose arguments do not fit is refused in every state. -/
theorem refusesAlike_perform (hcall : call.StaysIn share) (hfits : ¬ call.Fits) :
    RefusesAlike (LedgerStore.perform call : Action LedgerError σ call.Answer) := by
  change RefusesAlike (ensureCall call >>= fun _ => mapError StoreError.toLedger (performStored call))
  rcases ensureCall_cases call with hname | ⟨e, hfail, -⟩
  · rw [hname]
    exact (refusesAlike_performStored hcall hfits).toLedger
  · rw [hfail]
    exact ⟨e, fun _ => rfl⟩

end Database

/-! ## Requests that fit -/

namespace Memory

variable {m n : Memory} {share : Share} {call : Call}

/-- What a call that fits leaves in a ledger fits as well, unless it counts a start. -/
theorem Storable.perform (hs : m.Storable) (hcall : call.StaysIn share) (hfits : call.Fits)
    (hcount : ∀ id, call ≠ .incrementStartCount id) :
    (LedgerStore.perform call m).state.Storable := by
  have hchange := changes_perform call m
  generalize (LedgerStore.perform call m).state = next at hchange
  cases hchange with
  | same => exact hs
  | markStarted | setExecutionStatus | finalizeExecution => exact hs.modifyExecution _ fun _ => rfl
  | updateStep => exact hs.modifyStep _ fun _ => hfits.2.2
  | createJobStatus => exact hs.addJobStatus (hasBlob_fresh_jobStatus _)
  | updateJobStatus => exact hs.setJobStatus hfits.2
  | createStepStatus => exact hs.addStepStatus (hasBlob_fresh_stepStatus _)
  | updateStepStatus => exact hs.setStepStatus hfits.2
  | incrementStartCount => exact absurd rfl (hcount _)
  | createPair _ hchange =>
    rw [createPair_eq_ok hchange]
    exact hs.addTokens fits_none fits_none
  | updatePair hchange =>
    rw [updatePair_eq_ok hchange]
    exact (hs.setToken hfits.1).setToken hfits.2
  | createInstance | createPartition | createExecution | createStep | purge => exact hcall.elim

/-- Results of which one part is looked at may differ in the other one. -/
theorem map_bind_congr {ε α β γ : Type} {x : Except ε α} {f g : α → Except ε β} {k : β → γ}
    (h : ∀ a, (f a).map k = (g a).map k) : (x >>= f).map k = (x >>= g).map k := by
  cases x with
  | error e => rfl
  | ok a => exact h a

/-- The next count of starts comes of the record of the step, or the error does. -/
theorem map_fst_incrementStartCount (hm : m.WellFormed) (hn : n.WellFormed) {id : StepId}
    (hsame : m.stepStatus? id = n.stepStatus? id) :
    (Database.incrementStartCount id id.number m.database).map Prod.fst =
      (Database.incrementStartCount id id.number n.database).map Prod.fst := by
  rw [Database.incrementStartCount, Database.incrementStartCount]
  dsimp only
  rw [need_stepStatuses, need_stepStatuses, ok_bind, ok_bind, hm.find?_stepStatusTable,
    hn.find?_stepStatusTable, hsame]
  cases n.stepStatus? id with
  | none => rfl
  | some status =>
    rw [Option.map_some]
    refine map_bind_congr fun frame => map_bind_congr fun found => ?_
    split
    · exact map_bind_congr fun octets => rfl
    · rfl

end Memory

section Serving

variable {σ : Type} [KeepsDatabase σ] {Holds : σ → Memory → Prop} (hserves : Serves Holds) {s t : σ}
  {m n : Memory} (hholds : Holds s m) (hholds' : Holds t n)

include hserves hholds

/-- A write answers what its change of the database answers. -/
theorem Serves.answer_write {α : Type} (operation : String)
    (update : Database → Except StoreError (α × Database)) :
    (Database.write operation update s).answer = (update m.database).map Prod.fst := by
  cases hupdate : update m.database with
  | error e => rw [hserves.write_error hholds hupdate, Except.map]
  | ok result => rw [hserves.write_ok hholds hupdate, Except.map]

/-- Counting a start answers what its change of the database answers. -/
theorem Serves.answer_incrementStartCount {id : StepId} (hid : (id.number : Int) < signedLimit) :
    (perform (.incrementStartCount id) s).answer =
      ((Database.incrementStartCount id id.number m.database).map Prod.fst).mapError
        StoreError.toLedger := by
  rw [Database.perform_of_ensured rfl, Database.performStored, rowOf_of_lt hid]
  exact congrArg (Except.mapError StoreError.toLedger) (hserves.answer_write hholds _ _)

include hholds'

/-- Two stores that hold ledgers with the same part answer alike what stays in the share. -/
theorem Database.answer_eq_of_part (hm : m.WellFormed) (hn : n.WellFormed) (hs : m.Storable)
    (ht : n.Storable) {share : Share} (hmarks : share.Marks m) (hmarks' : share.Marks n)
    (hpart : share.part m = share.part n) {call : Call} (hcall : call.StaysIn share) :
    (LedgerStore.perform call s).answer = (LedgerStore.perform call t).answer := by
  by_cases hfits : call.Fits
  · by_cases hcount : ∃ id, call = .incrementStartCount id
    · obtain ⟨id, rfl⟩ := hcount
      have hsame : m.stepStatus? id = n.stepStatus? id := by
        rw [← Share.stepStatus?_part hcall, hpart, Share.stepStatus?_part hcall]
      rw [hserves.answer_incrementStartCount hholds hfits,
        hserves.answer_incrementStartCount hholds' hfits,
        Memory.map_fst_incrementStartCount hm hn hsame]
    · have hnot : ∀ id, call ≠ .incrementStartCount id := fun id heq => hcount ⟨id, heq⟩
      have hmetrics : ∀ root step, call ≠ .partitionMetrics root step := by
        rintro root step rfl
        exact hcall
      have hagrees {u : σ} {k : Memory} (hu : Holds u k) (hk : k.WellFormed) (hstorable : k.Storable) :
          (LedgerStore.perform call u).answer = (LedgerStore.perform call k).answer := by
        rcases mirrors_perform hserves hk hstorable hu call hmetrics with h | ⟨-, hunfit⟩
        · exact h.answer
        · exact absurd ⟨hfits, hstorable.perform hcall hfits hnot⟩ hunfit
      rw [hagrees hholds hm hs, hagrees hholds' hn ht, ← (Share.confines_perform hm hmarks hcall).1,
        hpart, (Share.confines_perform hn hmarks' hcall).1]
  · obtain ⟨e, he⟩ := refusesAlike_perform (σ := σ) hcall hfits
    rw [he, he]

end Serving

/-! ## Contents -/

/-- Two databases have the same rows in each table. The rows of restart tokens have no order. -/
structure Database.SameContents (db other : Database) : Prop where
  versions : db.versions = other.versions
  instances : db.instances = other.instances
  executions : db.executions = other.executions
  steps : db.steps = other.steps
  jobStatuses : db.jobStatuses = other.jobStatuses
  stepStatuses : db.stepStatuses = other.stepStatuses
  checkpoints : Option.Rel List.Perm db.checkpoints other.checkpoints
  indexes : db.indexes = other.indexes

/-- The databases of ledgers with the same contents have the same contents. -/
theorem Memory.SameContents.database {m n : Memory} (h : m.SameContents n) (hm : m.WellFormed) :
    m.database.SameContents n.database where
  versions := rfl
  instances := by
    change some m.instanceTable = some n.instanceTable
    rw [instanceTable, instanceTable, h.instances, h.lastInstance]
  executions := by
    change some m.executionTable = some n.executionTable
    rw [executionTable, executionTable, h.executions, h.lastExecution]
  steps := by
    change some m.stepTable = some n.stepTable
    rw [stepTable, stepTable, h.steps, h.lastStep]
  jobStatuses := by
    change some m.jobStatusTable = some n.jobStatusTable
    rw [jobStatusTable, jobStatusTable, sortRows_rowsOf_of_perm hm.jobStatuses_distinct h.jobStatuses]
  stepStatuses := by
    change some m.stepStatusTable = some n.stepStatusTable
    rw [stepStatusTable, stepStatusTable,
      sortRows_rowsOf_of_perm hm.stepStatuses_distinct h.stepStatuses]
  checkpoints := .some (h.checkpoints.map _)
  indexes := rfl

end JobLedger
