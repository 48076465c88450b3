import JobLedger.Proofs.Memory.Parts
import Mathlib.Data.List.Nodup

/-!
# Ledgers with the same contents

Two ledgers have the same contents if they have the same rows in each table. History stands in the
order of its numbers; for other rows their order does not matter. Every row is in the share of an
instance, so that ledgers have the same contents if they have the same parts.
-/

namespace JobLedger

open Text

/-- Two ledgers have the same counters and the same rows. -/
structure Memory.SameContents (m n : Memory) : Prop where
  lastInstance : m.lastInstance = n.lastInstance
  lastExecution : m.lastExecution = n.lastExecution
  lastStep : m.lastStep = n.lastStep
  instances : m.instances = n.instances
  executions : m.executions = n.executions
  steps : m.steps = n.steps
  jobStatuses : m.jobStatuses.Perm n.jobStatuses
  stepStatuses : m.stepStatuses.Perm n.stepStatuses
  checkpoints : m.checkpoints.Perm n.checkpoints

/-- Rows in the order of their numbers are the same rows if they have the same members. -/
theorem Memory.SortedIds.eq_of_mem_iff {ρ : Type} {entity : Entity} {key : ρ → Id entity}
    {rows others : List ρ} (h : SortedIds key rows) (h' : SortedIds key others)
    (hmem : ∀ a, a ∈ rows ↔ a ∈ others) : rows = others := by
  have hnodup {list : List ρ} (hlist : SortedIds key list) : list.Nodup :=
    hlist.imp fun hlt heq => absurd (heq ▸ hlt) (Nat.lt_irrefl _)
  refine ((List.perm_ext_iff_of_nodup (hnodup h) (hnodup h')).mpr hmem).eq_of_pairwise ?_ h h'
  intro a b _ _ hab hba
  exact absurd (Nat.lt_trans hab hba) (Nat.lt_irrefl _)

/-- Rows with different keys are the same rows in some order if they have the same members. -/
theorem DistinctKeys.perm_of_mem_iff {α κ : Type} {key : α → κ} {rows others : List α}
    (h : DistinctKeys key rows) (h' : DistinctKeys key others) (hmem : ∀ a, a ∈ rows ↔ a ∈ others) :
    rows.Perm others := by
  have hnodup {list : List α} (hlist : DistinctKeys key list) : list.Nodup :=
    hlist.imp fun hne heq => hne (congrArg key heq)
  exact (List.perm_ext_iff_of_nodup (hnodup h) (hnodup h')).mpr hmem

namespace Share

/-- The rows of a ledger are among those of another one. -/
structure RowsWithin (m n : Memory) : Prop where
  instances : ∀ i ∈ m.instances, i ∈ n.instances
  executions : ∀ e ∈ m.executions, e ∈ n.executions
  steps : ∀ s ∈ m.steps, s ∈ n.steps
  jobStatuses : ∀ status ∈ m.jobStatuses, status ∈ n.jobStatuses
  stepStatuses : ∀ status ∈ m.stepStatuses, status ∈ n.stepStatuses
  checkpoints : ∀ row ∈ m.checkpoints, row ∈ n.checkpoints

/-- Every row is in the part of some instance. -/
theorem rowsWithin_of_parts {shares : InstanceId → Share} {m n : Memory} (hm : m.WellFormed)
    (hid : ∀ id, (shares id).id = id) (hmarks : ∀ id, (shares id).Marks m)
    (hparts : ∀ id, (shares id).part m = (shares id).part n) : RowsWithin m n := by
  have hexecution {e : JobExecution} (he : e ∈ m.executions) :
      (shares e.instanceId).executions e.id = true := by
    rw [(hmarks _).execution e he, hid, decide_eq_true_eq]
  have hstep {s : StepExecution} (hs : s ∈ m.steps) : ∃ id, (shares id).steps s.id = true := by
    obtain ⟨e, he, howner⟩ := hm.step_owner s hs
    exact ⟨e.instanceId, by rw [(hmarks _).step s hs, ← howner, hexecution he]⟩
  constructor
  · intro i hi
    exact mem_of_filter_eq (congrArg Memory.instances (hparts i.id)) hi
      (decide_eq_true (hid i.id).symm)
  · intro e he
    exact mem_of_filter_eq (congrArg Memory.executions (hparts e.instanceId)) he (hexecution he)
  · intro s hs
    obtain ⟨id, howned⟩ := hstep hs
    exact mem_of_filter_eq (congrArg Memory.steps (hparts id)) hs howned
  · intro status hstatus
    exact mem_of_filter_eq (congrArg Memory.jobStatuses (hparts status.instanceId)) hstatus
      (decide_eq_true (hid status.instanceId).symm)
  · intro status hstatus
    obtain ⟨s, hs, howner⟩ := hm.stepStatus_owner status hstatus
    obtain ⟨id, howned⟩ := hstep hs
    exact mem_of_filter_eq (congrArg Memory.stepStatuses (hparts id)) hstatus (howner ▸ howned)
  · intro row hrow
    obtain ⟨entries, hpairs⟩ := hm.checkpoints_paired
    obtain ⟨key, hkey⟩ := hpairs.exists_key hrow
    have hheld : (shares key.instanceId).holdsKey row.1 = true := by
      rw [hkey, holdsKey_encode, hid, decide_eq_true_eq]
    exact mem_of_filter_eq (congrArg Memory.checkpoints (hparts key.instanceId)) hrow hheld

/-- Ledgers with the same parts have the same contents. -/
theorem sameContents_of_parts {shares : InstanceId → Share} {m n : Memory} (hm : m.WellFormed)
    (hn : n.WellFormed) (hid : ∀ id, (shares id).id = id) (hmarks : ∀ id, (shares id).Marks m)
    (hmarks' : ∀ id, (shares id).Marks n) (hparts : ∀ id, (shares id).part m = (shares id).part n) :
    m.SameContents n := by
  have hwithin := rowsWithin_of_parts hm hid hmarks hparts
  have hwithin' := rowsWithin_of_parts hn hid hmarks' fun id => (hparts id).symm
  obtain ⟨entries, hpairs⟩ := hm.checkpoints_paired
  obtain ⟨entries', hpairs'⟩ := hn.checkpoints_paired
  -- The counters are the same in every part.
  have hpart := hparts ⟨1, by decide, by decide⟩
  have hinstance := congrArg Memory.lastInstance hpart
  have hexecution := congrArg Memory.lastExecution hpart
  have hstep := congrArg Memory.lastStep hpart
  exact {
    lastInstance := hinstance
    lastExecution := hexecution
    lastStep := hstep
    instances := hm.instances_sorted.eq_of_mem_iff hn.instances_sorted fun i =>
      ⟨hwithin.instances i, hwithin'.instances i⟩
    executions := hm.executions_sorted.eq_of_mem_iff hn.executions_sorted fun e =>
      ⟨hwithin.executions e, hwithin'.executions e⟩
    steps := hm.steps_sorted.eq_of_mem_iff hn.steps_sorted fun s =>
      ⟨hwithin.steps s, hwithin'.steps s⟩
    jobStatuses := hm.jobStatuses_distinct.perm_of_mem_iff hn.jobStatuses_distinct fun status =>
      ⟨hwithin.jobStatuses status, hwithin'.jobStatuses status⟩
    stepStatuses := hm.stepStatuses_distinct.perm_of_mem_iff hn.stepStatuses_distinct fun status =>
      ⟨hwithin.stepStatuses status, hwithin'.stepStatuses status⟩
    checkpoints := (List.perm_ext_iff_of_nodup hpairs.nodup_keys.of_map hpairs'.nodup_keys.of_map).mpr
      fun row => ⟨hwithin.checkpoints row, hwithin'.checkpoints row⟩ }

end Share

end JobLedger
