import JobLedger.Proofs.Files.Carrying
import JobLedger.Proofs.Tokens.Served

/-!
# The restart tokens of both stores are a map

The store in memory has room for every token, a database for those that a frame holds. Apart from that
there is no telling either store from a map, whatever else is asked of it in between.
-/

namespace JobLedger

open JobLedger.Action Text

/-- The instances of a tag are those that have it. -/
theorem Memory.WellFormed.tagged_eq {m : Memory} (h : m.WellFormed) (tag : String)
    (id : InstanceId) : TokenMap.tagged m tag id = (m.instancesOf tag).contains id := by
  have hanswer : (LedgerStore.perform (.tagOfInstance id) m).answer = m.tagOfInstance id := rfl
  rw [TokenMap.tagged, hanswer, Memory.tagOfInstance]
  cases hi : m.instance? id with
  | some i =>
    rw [contains_instancesOf tag h hi]
    rfl
  | none =>
    refine (Bool.eq_false_iff.mpr fun hcontains => ?_).symm
    obtain ⟨i, hmem, hid, -⟩ := contains_instancesOf_iff.mp hcontains
    rw [h.instance?_eq_some_iff.mpr ⟨hmem, hid⟩] at hi
    cases hi

/-- The store in memory carries itself. -/
theorem Memory.carriesTokens :
    CarriesTokens (fun _ => true) fun s m : Memory => s = m ∧ m.WellFormed where
  wellFormed h := h.2
  alike _ _ := by
    rintro s m ⟨rfl, h⟩
    exact ⟨rfl, rfl, keeps_wellFormed _ s h⟩
  refused _ _ _ _ hfits := by cases hfits
  cases call := by
    rintro ⟨rfl, h⟩
    exact .inl ⟨rfl, keeps_wellFormed call _ h⟩
  tagged_eq tag id := by
    rintro ⟨rfl, h⟩
    exact h.tagged_eq tag id

/-- A database has room for what a call on restart tokens leaves, if it has room for those it
writes. -/
theorem Memory.Changes.storable {m next : Memory} {call : Call} (h : Changes call m next)
    (hformed : m.WellFormed) (hs : m.Storable)
    (hcall : call.IsOnTokens fun token => decide (Frame.Fits token)) : next.Storable := by
  cases h with
  | same => exact hs
  | purge =>
    rw [hformed.purge_eq]
    exact hs.remaining _
  | createPair hname h =>
    rw [Memory.createPair_eq_ok h]
    exact hs.addTokens fits_none fits_none
  | updatePair h =>
    obtain ⟨hreader, hwriter⟩ := (Bool.and_eq_true _ _).mp hcall
    rw [Memory.updatePair_eq_ok h]
    exact (hs.setToken (of_decide_eq_true hreader)).setToken (of_decide_eq_true hwriter)
  | _ => exact hcall.elim

/-- Tokens that no frame holds are refused before anything is looked at. -/
theorem Database.updatePair_refused {σ : Type} [KeepsDatabase σ] {s : σ} (id : InstanceId)
    (step : String) {pair : CheckpointPair}
    (hfits : ¬ (Frame.Fits pair.reader ∧ Frame.Fits pair.writer)) :
    (LedgerStore.perform (.updatePair id step pair) s).answer =
        .error ⟨.invalid, .unwritten (.payload .tooLong)⟩ ∧
      (LedgerStore.perform (.updatePair id step pair) s).state = s := by
  change (mapError StoreError.toLedger (performStored (.updatePair id step pair)) s).answer = _ ∧
    (mapError StoreError.toLedger (performStored (.updatePair id step pair)) s).state = s
  rw [performStored, mapError]
  by_cases hreader : Frame.Fits pair.reader
  · have hwriter : ¬ Frame.Fits pair.writer := fun h => hfits ⟨hreader, h⟩
    rw [tokenBlob_of_fits hreader, tokenBlob_of_not_fits hwriter]
    exact ⟨rfl, rfl⟩
  · rw [tokenBlob_of_not_fits hreader]
    exact ⟨rfl, rfl⟩

/-- A session tells the instances of a tag as the ledger does that it carries. -/
theorem OpenLedger.Carries.tagged_eq {l : OpenLedger} {m : Memory} (h : l.Carries m) (tag : String)
    (id : InstanceId) : TokenMap.tagged l tag id = (m.instancesOf tag).contains id := by
  rcases Database.mirrors_perform serves h.wellFormed h.storable h.holds (.tagOfInstance id) nofun
    with hagrees | ⟨⟨⟨e, hanswer⟩, -⟩, hunfit⟩
  · rw [TokenMap.tagged, hagrees.answer, ← TokenMap.tagged, h.wellFormed.tagged_eq]
  · -- The identifier is that of no row, and so of no instance.
    rw [TokenMap.tagged, hanswer]
    refine (Bool.eq_false_iff.mpr fun hcontains => hunfit ⟨?_, h.storable⟩).symm
    obtain ⟨i, hi, rfl, -⟩ := Memory.contains_instancesOf_iff.mp hcontains
    have hle := (h.wellFormed.instance_le i hi)
    have hlast := h.storable.lastInstance_lt
    change (i.id.number : Int) < signedLimit
    omega

/-- Sessions carry ledgers with the tokens that frames hold. -/
theorem OpenLedger.carriesTokens :
    CarriesTokens (fun token => decide (Frame.Fits token)) OpenLedger.Carries where
  wellFormed h := h.wellFormed
  alike call hcall := by
    intro l m h
    have hnext := (Memory.changes_perform call m).storable h.wellFormed h.storable hcall
    refine h.agrees call ?_ ?_ hnext
    · rintro root step rfl
      exact hcall
    · cases call with
      | updatePair id step pair =>
        obtain ⟨hreader, hwriter⟩ := (Bool.and_eq_true _ _).mp hcall
        exact ⟨of_decide_eq_true hreader, of_decide_eq_true hwriter⟩
      | createPair | findPair | purge => trivial
      | _ => exact hcall.elim
  refused {l m} id step pair h hfits := by
    have hunfit : ¬ (Frame.Fits pair.reader ∧ Frame.Fits pair.writer) := by
      rintro ⟨hreader, hwriter⟩
      simp [hreader, hwriter] at hfits
    obtain ⟨hanswer, hstate⟩ := Database.updatePair_refused (s := l) id step hunfit
    exact ⟨hanswer, hstate.symm ▸ h⟩
  cases call h := h.perform_cases call
  tagged_eq tag id h := h.tagged_eq tag id

/-- Both stores answer every sequence of operations as a map from steps to pairs of tokens does. -/
theorem TokenMap.explains_run (operations : List Operation) :
    Explains (fun _ => true) empty Memory.empty operations ∧
      ∀ {t : FileTree} {settings : StoreSettings} {place : Place} {l : OpenLedger},
        l.OpenedAt t settings place →
          Explains (fun token => decide (Frame.Fits token)) empty l operations := by
  constructor
  · exact Memory.carriesTokens.explains
      ⟨_, ⟨rfl, Memory.wellFormed_empty⟩, Memory.keepsTokens_empty⟩ operations
  · intro t settings place l hl
    exact OpenLedger.carriesTokens.explains ⟨_, hl.carries, Memory.keepsTokens_empty⟩ operations

/-- A step whose name looks like more of a key, beside one without a name. -/
theorem TokenMap.explains_atStart :
    let id : InstanceId := ⟨1, by decide, by decide⟩
    Explains (fun token => decide (Frame.Fits token)) empty OpenLedger.atStart
      [.ensureCheckpoint id "1,copy", .createCheckpoint id "",
        .updateCheckpoint id "1,copy" ⟨some [], none⟩, .getCheckpoint id "1,copy"] := by
  intro id
  exact (explains_run _).2 OpenLedger.openedAt_atStart

end JobLedger
