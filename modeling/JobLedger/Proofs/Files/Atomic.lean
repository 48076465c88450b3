import JobLedger.Proofs.Durable.Atomic
import JobLedger.Proofs.Files.Carrying

/-!
# Ledger files and sessions fail in place

Someone who reads a ledger may do away with a journal that is left, and take the log of the ledger
into use. The database and the lock stay what they are.
-/

namespace JobLedger

open JobLedger.Action

/-- The calls on a ledger file fail in place. -/
theorem LedgerFile.atomicStore : AtomicStore (id : LedgerFile → LedgerFile) :=
  Database.atomicStore fun _ => rfl

/-- A file that can be written to can be read. -/
theorem LedgerFile.rereads (f : LedgerFile) : Rereads f := by
  intro reading writing seen found next _ _ hwritable _
  have hlock : f.lock.isSome = false := by
    change f.writable writing = .ok found at hwritable
    rw [writable] at hwritable
    split at hwritable
    · exact nomatch hwritable
    · next hnone => simpa using hnone
  have hnone : f.lock = none := by simpa using hlock
  change readable { f with database := next } reading = .ok next
  simp [readable, isShut, hnone]

namespace FileTree

variable (t : FileTree)

/-- A file beside a ledger is not the ledger. -/
theorem ledgerAt_putSide (place : Place) (side : SideFile) (content : Text.Octets) :
    (t.putSide place side content).ledgerAt (.file place) = t.ledgerAt (.file place) := by
  rw [putSide]
  split
  · rfl
  · rw [ledgerAt, find?_put, if_neg (SideFile.of_ne side place).symm, ← ledgerAt]

/-- A first reader leaves the ledger that it reads. -/
theorem ledgerAt_afterRead (home : Home) : (t.afterRead home).ledgerAt home = t.ledgerAt home := by
  cases home with
  | memory name => rfl
  | file place =>
    rw [afterRead, dropJournal]
    split
    · rw [ledgerAt, find?_erase, if_neg (SideFile.of_ne .journal place).symm, ← ledgerAt]
    · rfl

/-- A log is taken into use for the ledger that is there. -/
theorem ledgerAt_keepLog (place : Place) : ∃ attached,
    (t.keepLog place).ledgerAt (.file place) = { t.ledgerAt (.file place) with attached } := by
  rw [keepLog]
  dsimp only
  split
  · split
    · exact ⟨_, t.ledgerAt_putSide place .log _⟩
    · exact ⟨_, rfl⟩
  · refine ⟨true, ?_⟩
    rw [ledgerAt_putSide, ledgerAt_putSide]
    exact (ledgerAt_putLedger t (.file place) (.file place) _).trans (if_pos rfl)

/-- A session that joins a ledger changes who is attached to it. -/
theorem ledgerAt_attach (home : Home) (mayWrite : Bool) (readers : List Bool) : ∃ attached,
    (t.attach (.ledger home mayWrite readers)).ledgerAt home =
      { t.ledgerAt home with attached } := by
  cases home with
  | memory name =>
    exact ⟨true, (ledgerAt_putLedger t (.memory name) (.memory name) _).trans (if_pos rfl)⟩
  | file place =>
    rw [attach]
    split
    · exact t.ledgerAt_keepLog place
    · exact ⟨_, rfl⟩

/-- Only a lock is in the way of a ledger in memory. -/
theorem fault?_memory {t : FileTree} {name : String}
    (h : (t.ledgerAt (.memory name)).isShut = false) : t.fault? (.memory name) = none := by
  rw [fault?.eq_def]
  dsimp only
  rw [h, if_neg Bool.false_ne_true]

end FileTree

namespace OpenLedger

/-- A reader leaves the ledger of the session, up to its being in use. -/
theorem turn_ledger (t : FileTree) (home : Home) (mayWrite : Bool) (readers : List Bool) :
    ∃ after attached others, turn ⟨t, .ledger home mayWrite readers⟩ =
        ⟨after, .ledger home mayWrite others⟩ ∧
      after.ledgerAt home = { t.ledgerAt home with attached } := by
  cases readers with
  | nil => exact ⟨t, (t.ledgerAt home).attached, [], rfl, rfl⟩
  | cons first rest =>
    have hread (isKnown : Bool) : (if isKnown then t else t.afterRead home).ledgerAt home =
        t.ledgerAt home := by
      cases isKnown with
      | true => rfl
      | false => exact t.ledgerAt_afterRead home
    rw [turn]
    dsimp only
    split
    · obtain ⟨attached, hattached⟩ := FileTree.ledgerAt_attach
        (if first && (t.ledgerAt home).journal = .wal then t else t.afterRead home) home mayWrite
        (first :: rest)
      rw [hread] at hattached
      exact ⟨_, attached, _, rfl, hattached⟩
    · exact ⟨t, (t.ledgerAt home).attached, _, rfl, rfl⟩

/-- A reader leaves the database of a session. -/
theorem database_turn (l : OpenLedger) : (turn l).database = l.database := by
  obtain ⟨t, session⟩ := l
  cases session with
  | ledger home mayWrite readers =>
    obtain ⟨after, attached, others, hturn, hledger⟩ := turn_ledger t home mayWrite readers
    rw [hturn, database]
    dsimp only
    rw [hledger]
    rfl
  | own db => rfl
  | fixed db => rfl

/-- The calls on a session leave its database when they fail. -/
theorem atomicStore : AtomicStore OpenLedger.database := Database.atomicStore database_turn

/-- Nobody has put anything beside the file of a session, as long as nobody has the file locked. -/
def HasOwnFiles (l : OpenLedger) : Prop :=
  match l.session with
  | .ledger (.file place) .. =>
    (l.files.ledgerAt (.file place)).lock = none → ∃ f, l.files.Undisturbed place f
  | _ => True

/-- What is not refused has nothing in its way. -/
theorem eq_none_of_refuse {fault : Option (String → StoreError)} {operation : String} {u : Unit}
    (h : refuse fault operation = .ok u) : fault = none := by
  cases fault with
  | none => rfl
  | some fault => exact nomatch h

/-- Who writes finds the file not locked. -/
theorem lock_none_of_writable {t : FileTree} {home : Home} {mayWrite : Bool} {readers : List Bool}
    {operation : String} {found : Database}
    (h : writable ⟨t, .ledger home mayWrite readers⟩ operation = .ok found) :
    (t.ledgerAt home).lock = none := by
  obtain ⟨u, hfault, -⟩ := bind_eq_ok_iff.mp h
  have hnone := eq_none_of_refuse hfault
  rw [writeFault?] at hnone
  dsimp only at hnone
  split at hnone
  · cases hnone
  · split at hnone
    · cases hnone
    · split at hnone
      · cases hnone
      · next hlock => simpa using hlock

/-- A ledger in memory that nobody has locked is read as it was written. -/
theorem readable_keep_memory {t : FileTree} {name : String} {mayWrite : Bool} {readers : List Bool}
    (hlock : (t.ledgerAt (.memory name)).lock = none) (next : Database) (operation : String) :
    readable (keep ⟨t, .ledger (.memory name) mayWrite readers⟩ next) operation = .ok next := by
  let written := t.putLedger (.memory name) { t.ledgerAt (.memory name) with database := next }
  let session := Session.ledger (.memory name) mayWrite readers
  obtain ⟨attached, hattached⟩ := written.ledgerAt_attach (.memory name) mayWrite readers
  have hput : written.ledgerAt (.memory name) =
      { t.ledgerAt (.memory name) with database := next } :=
    (FileTree.ledgerAt_putLedger t (.memory name) (.memory name) _).trans (if_pos rfl)
  rw [hput] at hattached
  have hclear : (written.attach session).fault? (.memory name) = none := by
    refine FileTree.fault?_memory ?_
    rw [hattached]
    simp [LedgerFile.isShut, hlock]
  have hfault (others : List Bool) :
      readFault? ⟨written.attach session, .ledger (.memory name) mayWrite others⟩ = none := by
    rw [readFault?]
    dsimp only
    rw [hclear, ite_self]
  change readable ⟨written.attach session, .ledger (.memory name) mayWrite _⟩ operation = _
  rw [readable, hfault]
  dsimp only [refuse]
  rw [ok_bind, hattached]

/-- A session that can be written to can be read. -/
theorem rereads {l : OpenLedger} (h : l.HasOwnFiles) : Rereads l := by
  obtain ⟨t, session⟩ := l
  intro reading writing seen found next hseen hblank hwritable hnext
  change readable _ reading = .ok seen at hseen
  change writable (turn _) writing = .ok found at hwritable
  change readable (keep (turn _) next) reading = .ok next
  obtain ⟨u, hfault, hdatabase⟩ := bind_eq_ok_iff.mp hseen
  cases session with
  | own db => exact absurd (Except.ok.inj hdatabase).symm hblank
  | fixed db => exact nomatch hwritable
  | ledger home mayWrite readers =>
    have hseen' : (t.ledgerAt home).database = seen := Except.ok.inj hdatabase
    obtain ⟨after, attached, others, hturn, hledger⟩ := turn_ledger t home mayWrite readers
    rw [hturn] at hwritable
    have hlock := lock_none_of_writable hwritable
    rw [hledger] at hlock
    cases home with
    | memory name =>
      rw [hturn]
      rw [← hledger] at hlock
      exact readable_keep_memory hlock next reading
    | file place =>
      obtain ⟨f, hown⟩ := h hlock
      rw [hown.ledgerAt] at hseen'
      obtain ⟨looked, attached', others', hturn', hlooked⟩ :=
        turn_undisturbed hown mayWrite readers (hseen' ▸ hblank)
      obtain ⟨kept, attached'', others'', hkeep, hkept⟩ :=
        keep_undisturbed hlooked mayWrite others' hnext
      rw [hturn', hkeep, readable, readFault?_eq_none hkept]
      dsimp only [refuse]
      rw [ok_bind, hkept.ledgerAt]

end OpenLedger

end JobLedger
