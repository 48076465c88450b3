import JobLedger.Proofs.Durable.PurgeExact
import JobLedger.Proofs.Files.Carrying

/-!
# Purges are exact on both stores

Whatever operations a store has gone through, a purge takes away exactly what belongs to its tag. The
store in memory is looked at as the ledger that it is, an opened store as the database it works on.
-/

namespace JobLedger

open JobLedger.Action

/-- Purges of a store succeed and are exact for what the store keeps. A purge of a tag that was just
purged finds nothing, and of two tags either may be purged first. -/
structure PurgesExactly {σ δ : Type} [LedgerStore σ] (kept : σ → δ)
    (Purges : δ → String → PurgeSummary → δ → Prop) (s : σ) : Prop where
  exact (tag : String) : ∃ summary, (perform (.purge tag) s).answer = .ok summary ∧
    Purges (kept s) tag summary (kept (perform (.purge tag) s).state)
  again (tag : String) : let first := perform (.purge tag) s
    (perform (.purge tag) first.state).answer = .ok ⟨0, 0, 0, 0, 0, 0⟩ ∧
      kept (perform (.purge tag) first.state).state = kept first.state
  either_order (tag other : String) : let first := perform (.purge tag) s
    let second := perform (.purge other) s
    kept (perform (.purge other) first.state).state =
        kept (perform (.purge tag) second.state).state ∧
      (tag ≠ other → (perform (.purge other) first.state).answer = second.answer ∧
        (perform (.purge tag) second.state).answer = first.answer)

/-- Where a purge of a store is that of a well-formed ledger, it is exact. -/
theorem purgesExactly_of_ledger {σ δ : Type} [LedgerStore σ] {kept : σ → δ}
    {Purges : δ → String → PurgeSummary → δ → Prop} (image : Memory → δ)
    (Carries : σ → Memory → Prop)
    (hformed : ∀ {s m}, Carries s m → m.WellFormed) (hkept : ∀ {s m}, Carries s m → kept s = image m)
    (hpurge : ∀ {s m}, Carries s m → ∀ tag,
      (perform (.purge tag) s).answer = .ok (m.countTag tag) ∧
        Carries (perform (.purge tag) s).state (m.remaining tag))
    (hexact : ∀ {m : Memory}, m.WellFormed → ∀ tag,
      Purges (image m) tag (m.countTag tag) (image (m.remaining tag)))
    {s : σ} {m : Memory} (h : Carries s m) : PurgesExactly kept Purges s where
  exact tag := by
    obtain ⟨hanswer, hnext⟩ := hpurge h tag
    refine ⟨m.countTag tag, hanswer, ?_⟩
    rw [hkept h, hkept hnext]
    exact hexact (hformed h) tag
  again tag := by
    intro first
    have hnext : Carries first.state (m.remaining tag) := (hpurge h tag).2
    obtain ⟨hanswer, hlast⟩ := hpurge hnext tag
    obtain ⟨hsame, hnothing⟩ := m.remaining_again tag
    rw [hanswer, hnothing, hkept hlast, hkept hnext, hsame]
    exact ⟨rfl, rfl⟩
  either_order tag other := by
    intro first second
    obtain ⟨hfirst, hafterFirst⟩ := hpurge h tag
    obtain ⟨hsecond, hafterSecond⟩ := hpurge h other
    obtain ⟨hother, hends⟩ := hpurge hafterFirst other
    obtain ⟨htag, hends'⟩ := hpurge hafterSecond tag
    refine ⟨?_, fun hne => ⟨?_, ?_⟩⟩
    · rw [hkept hends, hkept hends', (hformed h).remaining_comm]
    · rw [hother, (hformed h).countTag_other hne]
      exact hsecond.symm
    · rw [htag, (hformed h).countTag_other (Ne.symm hne)]
      exact hfirst.symm

/-- A well-formed ledger in memory is purged exactly. -/
theorem Memory.WellFormed.purgesExactly {m : Memory} (h : m.WellFormed) :
    PurgesExactly id Memory.Purges m := by
  refine purgesExactly_of_ledger id (fun s m => s = m ∧ m.WellFormed)
    (fun h => h.2) (fun h => h.1) ?_ ?_ ⟨rfl, h⟩
  · rintro s _ ⟨rfl, hs⟩ tag
    rw [hs.perform_purge]
    exact ⟨rfl, rfl, hs.remaining tag⟩
  · intro m hm tag
    have hpurges := hm.purges tag
    rwa [hm.purge_eq] at hpurges

/-- A session that carries a ledger purges it exactly. -/
theorem OpenLedger.Carries.purgesExactly {l : OpenLedger} {m : Memory} (h : l.Carries m) :
    PurgesExactly OpenLedger.database Database.Purges l := by
  refine purgesExactly_of_ledger Memory.database OpenLedger.Carries (fun h => h.wellFormed)
    (fun h => h.database_eq) (fun {l m} h tag => ?_) (fun hm => hm.purges_database) h
  have hnext : (perform (.purge tag) m).state = m.remaining tag := by
    rw [h.wellFormed.perform_purge]
  obtain ⟨hanswer, hcarries⟩ := h.agrees (.purge tag) nofun trivial
    (hnext ▸ h.storable.remaining tag)
  rw [h.wellFormed.perform_purge] at hanswer hcarries
  exact ⟨hanswer, hcarries⟩

/-- After every run of operations on either store, a purge removes exactly what belongs to its tag. -/
theorem purgesExactly_reached (operations : List Operation) :
    PurgesExactly id Memory.Purges (Operation.run Memory.empty operations) ∧
      ∀ {t : FileTree} {settings : StoreSettings} {place : Place} {l : OpenLedger},
        l.OpenedAt t settings place →
          PurgesExactly OpenLedger.database Database.Purges (Operation.run l operations) := by
  refine ⟨(Memory.wellFormed_reached operations).purgesExactly, fun hl => ?_⟩
  obtain ⟨m, hcarries⟩ := hl.carries_run operations
  exact hcarries.purgesExactly

/-- A tag with an instance, its job status and its tokens, beside a tag whose step has a digit and a
comma in its name. -/
theorem purgesExactly_atStart :
    let id : InstanceId := ⟨1, by decide, by decide⟩
    let other : InstanceId := ⟨2, by decide, by decide⟩
    let operations := [.call (.createInstance "load" "nightly" none),
      .call (.createInstance "copy" "weekly" none), .createJobStatus id,
      .createCheckpoint id "copy", .createCheckpoint other "1,copy"]
    PurgesExactly OpenLedger.database Database.Purges
        (Operation.run OpenLedger.atStart operations) ∧
      (Operation.run Memory.empty operations).countTag "nightly" = ⟨1, 0, 0, 1, 0, 2⟩ := by
  intro id other operations
  exact ⟨(purgesExactly_reached operations).2 OpenLedger.openedAt_atStart, by decide +kernel⟩

end JobLedger
