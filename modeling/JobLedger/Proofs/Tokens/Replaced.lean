import JobLedger.Proofs.Durable.Atomic
import JobLedger.Proofs.Durable.Reading
import JobLedger.Proofs.Files.Carrying
import JobLedger.Proofs.Memory.Pairs

/-!
# Pairs of tokens that are replaced

A pair that a store finds can be replaced by any other one that there is room for. The new pair is
found from then on, and whatever is found for other steps is found as before, damage included: no two
keys have one text, so that the rows of a pair are nobody else's. This takes nothing of the tables
but that the pair is there.
-/

namespace JobLedger

open JobLedger.Action Text

/-- Where a pair is found, one with tokens that there is room for can be put in its place. It is
found afterwards, and other pairs are found as before. -/
def ReplacesPairs {σ : Type} [LedgerStore σ] (room : Octets → Prop) (s : σ) : Prop :=
  ∀ (id : InstanceId) (step : String) (old : CheckpointPair),
    (perform (.findPair id step) s).answer = .ok (some old) →
    ∀ pair : CheckpointPair, (∀ kind, ∀ token ∈ pair.token kind, room token) →
      (perform (.updatePair id step pair) s).answer = .ok () ∧
      ∀ (other : InstanceId) (name : String),
        (perform (.findPair other name) (perform (.updatePair id step pair) s).state).answer =
          if (other, name) = (id, step) then .ok (some pair)
          else (perform (.findPair other name) s).answer

/-- Where both rows of a pair are there, they hold the new values once both are replaced, and the
rows of other pairs are as before. -/
theorem lookup_changePair {κ β : Type} [DecidableEq κ] [BEq κ] [LawfulBEq κ]
    {form : CheckpointKey → κ} (hform : Function.Injective form) {rows : List (κ × β)}
    {id : InstanceId} {step : String}
    (hrows : ∀ kind, (rows.lookup (form (.ofPair id step kind))).isSome)
    (value : CheckpointKind → β) (other : InstanceId) (name : String) (kind : CheckpointKind) :
    (changeRow Prod.fst (form (.ofPair id step .writer)) (fun row => (row.1, value .writer))
      (changeRow Prod.fst (form (.ofPair id step .reader)) (fun row => (row.1, value .reader))
        rows)).lookup (form (.ofPair other name kind)) =
      if (other, name) = (id, step) then some (value kind)
      else rows.lookup (form (.ofPair other name kind)) := by
  have hkey (side : CheckpointKind) :
      form (.ofPair other name kind) = form (.ofPair id step side) ↔
        (other, name) = (id, step) ∧ kind = side := by
    simp [hform.eq_iff, CheckpointKey.ofPair, and_assoc]
  -- A row that is there is not lost, so that what was put under its key is found.
  have hheld (side : CheckpointKind) (b : β) :
      ((rows.lookup (form (.ofPair id step side))).map fun _ => b) = some b := by
    obtain ⟨old, hold⟩ := Option.isSome_iff_exists.mp (hrows side)
    rw [hold, Option.map_some]
  have hends : form (.ofPair id step .writer) ≠ form (.ofPair id step .reader) := by
    simp [hform.eq_iff, CheckpointKey.ofPair]
  rw [lookup_changeRow, lookup_changeRow, lookup_changeRow, if_neg hends]
  simp only [hkey, hheld]
  by_cases hsame : (other, name) = (id, step)
  · cases kind with
    | reader => simp [hsame]
    | writer => simp [hsame]
  · simp [hsame]

/-! ## In memory -/

namespace Memory

variable {m : Memory} {id : InstanceId} {step : String}

/-- A pair is found exactly if both of its tokens are there. -/
theorem findPair_eq_some_iff {pair : CheckpointPair} :
    m.findPair id step = .ok (some pair) ↔
      ∀ kind, m.token? (.ofPair id step kind) = some (pair.token kind) := by
  rw [findPair]
  constructor
  · intro h kind
    cases hreader : m.token? (.ofPair id step .reader) with
    | none => cases hwriter : m.token? (.ofPair id step .writer) <;> simp [hreader, hwriter] at h
    | some reader =>
      cases hwriter : m.token? (.ofPair id step .writer) with
      | none => simp [hreader, hwriter] at h
      | some writer =>
        simp only [hreader, hwriter, Except.ok.injEq, Option.some.injEq] at h
        subst h
        cases kind with
        | reader => exact hreader
        | writer => exact hwriter
  · intro h
    simp only [h, CheckpointPair.token]

/-- What is found of a pair depends on its own tokens only. -/
theorem findPair_congr {n : Memory}
    (h : ∀ kind, n.token? (.ofPair id step kind) = m.token? (.ofPair id step kind)) :
    n.findPair id step = m.findPair id step := by
  simp only [findPair, h]

/-- Any ledger in memory has room for any tokens. -/
theorem replacesPairs (m : Memory) : ReplacesPairs (fun _ => True) m := by
  intro id step old hold pair _
  have htokens := findPair_eq_some_iff.mp hold
  have hrows (kind : CheckpointKind) : (m.token? (.ofPair id step kind)).isSome := by
    rw [htokens kind, Option.isSome_some]
  let next := (m.setToken (.ofPair id step .reader) pair.reader).setToken (.ofPair id step .writer)
    pair.writer
  have hupdate : m.updatePair id step pair = .ok ((), next) := by
    simp only [updatePair, htokens, Option.isNone_some, Bool.or_self, Bool.false_eq_true, if_false]
    rfl
  have hperform : LedgerStore.perform (.updatePair id step pair) m = ⟨.ok (), next, []⟩ := by
    rw [perform_eq]
    exact change_ok hupdate
  have htoken (other : InstanceId) (name : String) (kind : CheckpointKind) :
      next.token? (.ofPair other name kind) =
        if (other, name) = (id, step) then some (pair.token kind)
        else m.token? (.ofPair other name kind) :=
    lookup_changePair CheckpointKey.encode_injective hrows pair.token other name kind
  rw [hperform]
  refine ⟨rfl, fun other name => ?_⟩
  change next.findPair other name = if _ then _ else m.findPair other name
  by_cases hsame : (other, name) = (id, step)
  · rw [if_pos hsame, findPair_eq_some_iff]
    intro kind
    rw [htoken, if_pos hsame]
  · rw [if_neg hsame]
    refine findPair_congr fun kind => ?_
    rw [htoken, if_neg hsame]

end Memory

/-! ## In a database -/

namespace Database

variable {id : InstanceId} {step : String}

theorem keyCell_injective : Function.Injective keyCell := by
  intro a b h
  exact CheckpointKey.encode_injective (Cell.text.inj h)

/-- What is found of a pair depends on its own rows only. -/
theorem findPair_congr {db next : Database} {rows others : List (Cell × Cell)}
    (hrows : db.checkpoints = some rows) (hothers : next.checkpoints = some others)
    (h : ∀ kind, others.lookup (keyCell (.ofPair id step kind)) =
      rows.lookup (keyCell (.ofPair id step kind))) :
    findPair id step next = findPair id step db := by
  simp only [findPair, hrows, hothers, Memory.need_some, ok_bind, h]

/-- The rows of a pair that is found are there. -/
theorem rows_of_findPair {db : Database} {old : CheckpointPair}
    (h : findPair id step db = .ok (some old)) :
    ∃ rows, db.checkpoints = some rows ∧
      ∀ kind, (rows.lookup (keyCell (.ofPair id step kind))).isSome := by
  have hholds := (reads_pair id step).holds_iff old |>.mp h
  cases hrows : db.checkpoints with
  | none =>
    obtain ⟨cell, hcell, -⟩ := hholds .reader
    rw [checkpoint?, hrows] at hcell
    cases hcell
  | some rows =>
    refine ⟨rows, rfl, fun kind => ?_⟩
    obtain ⟨cell, hcell, -⟩ := hholds kind
    rw [checkpoint?, hrows, Option.bind_some] at hcell
    rw [hcell, Option.isSome_some]

/-- A database in which a pair is found takes any tokens in its place that frames hold. -/
theorem exists_updatePair {db : Database} {old : CheckpointPair}
    (h : findPair id step db = .ok (some old)) {pair : CheckpointPair}
    (hfits : ∀ kind, Frame.Fits (pair.token kind)) :
    ∃ next, updatePair id step (Frame.framed pair.reader) (Frame.framed pair.writer) db =
        .ok ((), next) ∧
      ∀ (other : InstanceId) (name : String), findPair other name next =
        if (other, name) = (id, step) then .ok (some pair) else findPair other name db := by
  obtain ⟨rows, hrows, hthere⟩ := rows_of_findPair h
  let others := setToken (.ofPair id step .writer) (Frame.framed pair.writer)
    (setToken (.ofPair id step .reader) (Frame.framed pair.reader) rows)
  let next : Database := { db with checkpoints := some others }
  have hcell (other : InstanceId) (name : String) (kind : CheckpointKind) :
      others.lookup (keyCell (.ofPair other name kind)) =
        if (other, name) = (id, step) then some (.blob (Frame.framed (pair.token kind)))
        else rows.lookup (keyCell (.ofPair other name kind)) :=
    lookup_changePair keyCell_injective hthere
      (fun kind => .blob (Frame.framed (pair.token kind))) other name kind
  have hupdate : updatePair id step (Frame.framed pair.reader) (Frame.framed pair.writer) db =
      .ok ((), next) := by
    have hreader := Option.isNone_eq_false_iff.mpr (hthere .reader)
    have hwriter := Option.isNone_eq_false_iff.mpr (hthere .writer)
    rw [updatePair, hrows, Memory.need_some, ok_bind, hreader, hwriter, Bool.or_self,
      if_neg Bool.false_ne_true]
  refine ⟨next, hupdate, fun other name => ?_⟩
  by_cases hsame : (other, name) = (id, step)
  · rw [if_pos hsame, (reads_pair other name).holds_iff]
    intro kind
    refine ⟨.blob (Frame.framed (pair.token kind)), ?_, _, rfl, Frame.encode_of_fits (hfits kind)⟩
    rw [checkpoint?, Option.bind_some, hcell, if_pos hsame]
  · -- Whatever the rows of another pair hold, they are the same rows.
    rw [if_neg hsame]
    refine findPair_congr hrows rfl fun kind => ?_
    rw [hcell, if_neg hsame]

section Kept

variable {σ : Type} [KeepsDatabase σ] {s : σ} {db : Database}

theorem answer_findPair (h : KeepsDatabase.readable s "get checkpoint pair" = .ok db)
    (id : InstanceId) (step : String) :
    (LedgerStore.perform (.findPair id step) s).answer =
      (findPair id step db).mapError StoreError.toLedger := by
  rw [perform_findPair, h, ok_bind]

/-- Tokens that frames hold are written as a whole. -/
theorem perform_updatePair (h : KeepsDatabase.writable s "update checkpoint pair" = .ok db)
    {pair : CheckpointPair} (hfits : ∀ kind, Frame.Fits (pair.token kind)) {next : Database}
    (hupdate : updatePair id step (Frame.framed pair.reader) (Frame.framed pair.writer) db =
      .ok ((), next)) :
    LedgerStore.perform (.updatePair id step pair) s = ⟨.ok (), KeepsDatabase.keep s next, []⟩ := by
  have hreader : tokenBlob pair.reader = .ok (Frame.framed pair.reader) :=
    tokenBlob_of_fits (hfits .reader)
  have hwriter : tokenBlob pair.writer = .ok (Frame.framed pair.writer) :=
    tokenBlob_of_fits (hfits .writer)
  have hwrite : write "update checkpoint pair"
      (updatePair id step (Frame.framed pair.reader) (Frame.framed pair.writer)) s =
        ⟨.ok (), KeepsDatabase.keep s next, []⟩ := by
    refine change_ok ?_
    rw [h, ok_bind, hupdate, ok_bind]
  have hstored : performStored (.updatePair id step pair) s =
      ⟨.ok (), KeepsDatabase.keep s next, []⟩ := by
    rw [performStored, hreader, hwriter, ofExcept_ok_bind, ofExcept_ok_bind, hwrite]
  have hperform : LedgerStore.perform (.updatePair id step pair) s =
      mapError StoreError.toLedger (performStored (.updatePair id step pair)) s := rfl
  rw [hperform, mapError, hstored]
  rfl

/-- Where a reader and the writer find one database, and a reader finds what the writer leaves, pairs
can be replaced by tokens that frames hold. -/
theorem replacesPairs_of_kept (hread : KeepsDatabase.readable s "get checkpoint pair" = .ok db)
    (hwrite : KeepsDatabase.writable s "update checkpoint pair" = .ok db)
    (hkeep : ∀ next, next ≠ .blank →
      KeepsDatabase.readable (KeepsDatabase.keep s next) "get checkpoint pair" = .ok next) :
    ReplacesPairs (fun token => token.length < UInt32.size) s := by
  intro id step old hold pair hroom
  rw [answer_findPair hread] at hold
  have hfits (kind : CheckpointKind) : Frame.Fits (pair.token kind) := by
    cases htoken : pair.token kind with
    | none => exact fits_none
    | some token => exact hroom kind token htoken
  obtain ⟨next, hupdate, hfound⟩ := exists_updatePair (eq_ok_of_mapError hold) hfits
  have hthere : findPair id step next = .ok (some pair) := (hfound id step).trans (if_pos rfl)
  rw [perform_updatePair hwrite hfits hupdate]
  refine ⟨rfl, fun other name => ?_⟩
  rw [answer_findPair (hkeep next (ne_blank_of_findPair hthere)), answer_findPair hread, hfound]
  split
  · rfl
  · rfl

end Kept

end Database

/-- A session that has a ledger in a file to itself has room for the tokens that frames hold,
whatever else is in its tables. -/
theorem OpenLedger.replacesPairs {t : FileTree} {place : Place} {readers : List Bool}
    {f : LedgerFile} (h : t.Undisturbed place f) :
    ReplacesPairs (fun token => token.length < UInt32.size)
      (OpenLedger.mk t (.ledger (.file place) true readers)) := by
  refine Database.replacesPairs_of_kept (readable_eq h true readers _)
    (writable_eq h readers _) fun next hblank => ?_
  obtain ⟨after, attached, others, hkeep, hafter⟩ := keep_undisturbed h true readers hblank
  change readable (keep _ next) _ = _
  rw [hkeep]
  exact readable_eq hafter true others _

end JobLedger
