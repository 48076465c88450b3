import JobLedger.Proofs.Memory.Changes
import JobLedger.Proofs.Tokens.Map

/-!
# The map that a ledger in memory keeps

The pairs in the table of checkpoints are a map. The calls on restart tokens change it as the
operations on the map do, a purge drops what it should, and no other call touches it.
-/

namespace JobLedger

open JobLedger.Action Text

/-- A call does not write to the table of checkpoints. -/
def Call.LeavesTokens : Call → Prop
  | .createPair .. | .updatePair .. | .purge _ => False
  | _ => True

namespace Memory

/-- The pairs in the table of checkpoints are those of a map. -/
def KeepsTokens (m : Memory) (map : TokenMap) : Prop :=
  ∃ entries, HoldsPairs m.checkpoints entries ∧ ∀ id step, entries.lookup (id, step) = map id step

/-- An empty ledger keeps the tokens of the empty map. -/
theorem keepsTokens_empty : KeepsTokens empty TokenMap.empty :=
  ⟨[], ⟨rfl, .nil⟩, fun _ _ => rfl⟩

variable {m : Memory} {map : TokenMap}

/-- Only the table of checkpoints matters. -/
theorem KeepsTokens.of_checkpoints {other : Memory} (h : KeepsTokens m map)
    (hsame : other.checkpoints = m.checkpoints) : KeepsTokens other map := by
  obtain ⟨entries, hpairs, hmap⟩ := h
  exact ⟨entries, hsame ▸ hpairs, hmap⟩

/-- A ledger in memory creates a pair as the map does. -/
theorem simulates_createPair (id : InstanceId) (step : String) :
    Simulates KeepsTokens (LedgerStore.perform (.createPair id step)) (TokenMap.create id step) := by
  rw [perform_eq]
  refine (simulates_ensureStepName step).bind fun _ m map h => ?_
  obtain ⟨entries, hpairs, hmap⟩ := h
  have hcreate := hpairs.createPair id step
  rw [hmap] at hcreate
  cases hfound : map id step with
  | some pair =>
    have hadd : TokenMap.add id step map = .error ⟨.alreadyExists, .checkpointPair id step⟩ := by
      rw [TokenMap.add, hfound]
    rw [hfound, Option.isSome_some, if_pos rfl] at hcreate
    rw [change_error hcreate, change_error hadd]
    exact ⟨rfl, entries, hpairs, hmap⟩
  | none =>
    have hadd : TokenMap.add id step map = .ok ((), map.put id step .empty) := by
      rw [TokenMap.add, hfound]
    have hnew : entries.lookup (id, step) = none := (hmap id step).trans hfound
    rw [hfound, Option.isSome_none, if_neg Bool.false_ne_true] at hcreate
    rw [change_ok hcreate, change_ok hadd]
    refine ⟨rfl, _, holdsPairs_append hpairs.distinct hnew, fun other name => ?_⟩
    change _ = map.put id step .empty other name
    rw [List.lookup_append, hmap, TokenMap.put]
    split
    · next hsame =>
      obtain ⟨rfl, rfl⟩ := hsame
      rw [hfound]
      simp
    · next hne =>
      have hkey : ((other, name) == (id, step)) = false := by simpa using hne
      rw [List.lookup_cons, hkey]
      simp

/-- A ledger in memory finds a pair as the map does. -/
theorem simulates_findPair (id : InstanceId) (step : String) :
    Simulates KeepsTokens (LedgerStore.perform (.findPair id step))
      (look fun map => .ok (map id step)) := by
  intro m map h
  obtain ⟨entries, hpairs, hmap⟩ := h
  refine ⟨?_, entries, hpairs, hmap⟩
  change Memory.findPair id step m = .ok (map id step)
  rw [hpairs.findPair, hmap]

/-- A ledger in memory replaces tokens as the map does. -/
theorem simulates_updatePair {fits : Option Octets → Bool} (id : InstanceId) (step : String)
    {pair : CheckpointPair} (hfits : (fits pair.reader && fits pair.writer) = true) :
    Simulates KeepsTokens (LedgerStore.perform (.updatePair id step pair))
      (change (TokenMap.replace fits id step pair)) := by
  intro m map h
  obtain ⟨entries, hpairs, hmap⟩ := h
  have hupdate := hpairs.updatePair id step pair
  rw [hmap] at hupdate
  have hwhole : LedgerStore.perform (.updatePair id step pair) m =
      change (Memory.updatePair id step pair) m := congrFun (perform_eq _) m
  rw [hwhole]
  cases hfound : map id step with
  | none =>
    have hreplace : TokenMap.replace fits id step pair map =
        .error ⟨.notFound, .checkpointPair id step⟩ := by
      rw [TokenMap.replace, if_pos hfits, hfound]
    rw [hfound, Option.isNone_none, if_pos rfl] at hupdate
    rw [change_error hupdate, change_error hreplace]
    exact ⟨rfl, entries, hpairs, hmap⟩
  | some old =>
    have hreplace : TokenMap.replace fits id step pair map = .ok ((), map.put id step pair) := by
      rw [TokenMap.replace, if_pos hfits, hfound]
    rw [hfound, Option.isNone_some, if_neg Bool.false_ne_true] at hupdate
    rw [change_ok hupdate, change_ok hreplace]
    refine ⟨rfl, _, holdsPairs_replace hpairs.distinct, fun other name => ?_⟩
    change _ = map.put id step pair other name
    rw [lookup_replacePair, hmap, hmap, hfound, TokenMap.put]
    simp only [Prod.mk.injEq, Option.map_some]

/-- A purge drops the pairs of the instances of its tag. -/
theorem KeepsTokens.remaining (h : KeepsTokens m map) (tag : String) :
    KeepsTokens (m.remaining tag) (map.drop (m.instancesOf tag).contains) := by
  obtain ⟨entries, hpairs, hmap⟩ := h
  refine ⟨dropPairs (m.instancesOf tag).contains entries, ⟨?_, hpairs.distinct.filter _⟩, ?_⟩
  · simp only [Memory.remaining, hpairs.rows_eq, isKeyOfTag]
    exact filter_pairRows (m.instancesOf tag) entries
  · intro id step
    rw [lookup_dropPairs, hmap, TokenMap.drop]

/-! ## The other calls -/

/-- Beside the calls that write to it no call touches the table of checkpoints. -/
theorem Changes.checkpoints_eq {call : Call} {next : Memory} (h : Changes call m next)
    (hcall : call.LeavesTokens) : next.checkpoints = m.checkpoints := by
  cases h with
  | purge => exact hcall.elim
  | createPair => exact hcall.elim
  | updatePair => exact hcall.elim
  | _ => rfl

/-- Other calls leave the tokens. -/
theorem KeepsTokens.perform {call : Call} (h : KeepsTokens m map) (hcall : call.LeavesTokens) :
    KeepsTokens (LedgerStore.perform call m).state map :=
  h.of_checkpoints ((changes_perform call m).checkpoints_eq hcall)

end Memory

end JobLedger
