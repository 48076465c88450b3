import JobLedger.Proofs.Files.Atomic
import JobLedger.Proofs.Files.Tables

/-!
# Sessions that only look

A session that only looks takes turns of its readers, and is over then. The first reader of a ledger
with a log takes that into use; the end of the session puts the log back into the file, and loses
what was in it if somebody else wrote it over. That the ledger could be opened, and has a schema, is
enough for the log to be what the session made it.
-/

namespace JobLedger

open JobLedger.Action

namespace FileTree

variable {first t : FileTree} {place : Place}

/-- A ledger that is not blank has its log beside it, or can have it there, and that was not written
over. -/
structure HasLog (t : FileTree) (place : Place) : Prop where
  log_free : t.isBarred place .log = false
  untorn : t.isTorn (.file place) = false
  database_ne : (t.ledgerAt (.file place)).database ≠ .blank

/-- There may be a log beside a ledger that is not in use. -/
theorem HasLog.of_idle (hfree : t.isBarred place .log = false)
    (hdatabase : (t.ledgerAt (.file place)).database ≠ .blank)
    (hidle : (t.ledgerAt (.file place)).attached = false) : t.HasLog place where
  log_free := hfree
  untorn := by simp [isTorn, LedgerFile.isInLog, LedgerFile.isLogged, hidle]
  database_ne := hdatabase

namespace HasLog

variable (h : t.HasLog place)

include h

/-- There is a log as long as nothing changes at the two places. -/
theorem of_find? {u : FileTree} (hplace : u.find? place = t.find? place)
    (hlog : u.find? (SideFile.log.of place) = t.find? (SideFile.log.of place)) :
    u.HasLog place where
  log_free := (isBarred_of_find? hlog).trans h.log_free
  untorn := by
    rw [isTorn, ledgerAt_of_find? hplace, hlog]
    exact h.untorn
  database_ne := by
    rw [ledgerAt_of_find? hplace]
    exact h.database_ne

/-- A reader who does away with a journal leaves the log. -/
theorem dropJournal : (t.dropJournal place).HasLog place :=
  have hne : SideFile.log ≠ .journal := by decide
  h.of_find? (find?_dropJournal_of_ne (SideFile.of_ne .journal place).symm)
    (find?_dropJournal_of_ne (SideFile.of_ne_of hne place))

/-- The log of a ledger that is in use is written anew where it is empty. -/
theorem putLog (hempty : t.find? (SideFile.log.of place) = some (.file [])) (content : Text.Octets) :
    (t.putSide place .log content).HasLog place := by
  have hplace : (t.putSide place .log content).ledgerAt (.file place) = t.ledgerAt (.file place) :=
    t.ledgerAt_putSide place .log content
  have hshort : (t.ledgerAt (.file place)).isInLog = false := by
    have huntorn := h.untorn
    rw [isTorn, hempty] at huntorn
    simpa [logContent] using huntorn
  refine ⟨isBarred_of_file (find?_putSide h.log_free), ?_, ?_⟩
  · rw [isTorn, hplace, hshort]
    rfl
  · rw [hplace]
    exact h.database_ne

/-- The log of a ledger is taken into use. -/
theorem keepLog : (t.keepLog place).HasLog place := by
  rw [FileTree.keepLog]
  dsimp only
  split
  · split
    · next hempty => exact h.putLog hempty _
    · exact h
  · -- The index is written last, and stays out of the way of the log.
    let f : LedgerFile := { t.ledgerAt (.file place) with attached := true }
    have hlogNe : SideFile.log ≠ .index := by decide
    let logged := (t.put place (.ledger f)).putSide place .log (logOf f)
    have hledger : logged.ledgerAt (.file place) = f :=
      (ledgerAt_putSide _ place .log _).trans
        ((ledgerAt_putLedger t (.file place) (.file place) f).trans (if_pos rfl))
    have hlog : logged.find? (SideFile.log.of place) = some (.file (logOf f)) :=
      find?_putSide ((isBarred_put _).trans h.log_free)
    have hkept : logged.HasLog place := by
      refine ⟨isBarred_of_file hlog, ?_, ?_⟩
      · rw [isTorn, hledger, hlog]
        cases hinLog : f.isInLog with
        | false => rfl
        | true => simp [Undisturbed.logOf_eq (f := f) h.database_ne hinLog]
      · rw [hledger]
        exact h.database_ne
    exact hkept.of_find? (find?_putSide_of_ne (SideFile.of_ne .index place).symm _)
      (find?_putSide_of_ne (SideFile.of_ne_of hlogNe place) _)

/-- A session that joins a ledger has its log. -/
theorem attach (mayWrite : Bool) (readers : List Bool) :
    (t.attach (.ledger (.file place) mayWrite readers)).HasLog place := by
  rw [FileTree.attach]
  split
  · exact h.keepLog
  · exact h

end HasLog

end FileTree

namespace OpenLedger

variable {first : FileTree} {place : Place}

/-- A reader leaves the rows of all tables. -/
theorem keepsTables_turn (l : OpenLedger)
    (h : l.session.IsApart place ∧ FileTree.KeepsTables first place l.files) :
    l.turn.session.IsApart place ∧ FileTree.KeepsTables first place l.turn.files := by
  obtain ⟨t, session⟩ := l
  obtain ⟨hapart, htables⟩ := h
  cases session with
  | own db => exact ⟨hapart, htables⟩
  | fixed db => exact ⟨hapart, htables⟩
  | ledger home mayWrite readers =>
    have hhome := hapart home mayWrite readers rfl
    cases readers with
    | nil => exact ⟨hapart, htables⟩
    | cons reader rest =>
      refine ⟨fun other _ _ hother => (Session.ledger.inj hother).1 ▸ hhome, ?_⟩
      rw [turn]
      dsimp only
      split
      · refine FileTree.KeepsTables.attach ?_ hhome mayWrite _
        split
        · exact htables
        · exact htables.afterRead hhome
      · exact htables

/-- A reader leaves a ledger with its log. -/
theorem hasLog_turn (l : OpenLedger)
    (h : (∃ mayWrite readers, l.session = .ledger (.file place) mayWrite readers) ∧
      l.files.HasLog place) :
    (∃ mayWrite readers, l.turn.session = .ledger (.file place) mayWrite readers) ∧
      l.turn.files.HasLog place := by
  obtain ⟨t, session⟩ := l
  obtain ⟨⟨mayWrite, readers, rfl⟩, hlog⟩ := h
  cases readers with
  | nil => exact ⟨⟨mayWrite, [], rfl⟩, hlog⟩
  | cons reader rest =>
    refine ⟨⟨mayWrite, _, rfl⟩, ?_⟩
    rw [turn]
    dsimp only
    split
    · refine FileTree.HasLog.attach ?_ mayWrite _
      split
      · exact hlog
      · exact hlog.dropJournal
    · exact hlog

end OpenLedger

namespace FileTree

variable {t : FileTree} {place : Place}

/-! ## The log at the start of a session -/

/-- Where nothing is in the way of a reader, nothing is in the place of the log. -/
theorem log_free_of_fault? (h : t.fault? (.file place) = none) :
    t.isBarred place .log = false := by
  rw [fault?.eq_def] at h
  dsimp only at h
  split at h
  · cases h
  · split at h
    · cases h
    · next hclear =>
      simp only [not_or, Bool.not_eq_true] at hclear
      exact hclear.1

/-- Who can start to read finds no directory in the place of the log. -/
theorem log_free_of_enter {mayWrite : Bool} {mode : JournalMode} {u : Unit}
    (h : (enter place mayWrite mode t).answer = .ok u) :
    (enter place mayWrite mode t).state.isBarred place .log = false := by
  rw [enter] at h ⊢
  obtain ⟨_, hentry, -, hstate⟩ := bind_eq_ok h
  have hfree : t.isBarred place .log = false := by
    have hnone : t.entryFault? place mayWrite mode = none := by
      cases hfault : t.entryFault? place mayWrite mode with
      | none => rfl
      | some fault =>
        rw [look_apply, hfault] at hentry
        cases hentry
    rw [entryFault?] at hnone
    split at hnone
    · cases hnone
    · split at hnone
      · cases hnone
      · next hfault => exact log_free_of_fault? hfault
  have hne : SideFile.log ≠ .journal := by decide
  rw [hstate]
  change (t.dropJournal place).isBarred place .log = false
  rw [isBarred_of_find? (find?_dropJournal_of_ne (SideFile.of_ne_of hne place))]
  exact hfree

/-- A ledger that is changed leaves the place of the log as it is. -/
theorem keeps_log_free {ε α : Type} (x : Action ε LedgerFile α) :
    Keeps (fun t => t.isBarred place .log = false) (onLedger (.file place) x) := by
  intro t h
  have hne : SideFile.log ≠ .journal := by decide
  have hput (f : LedgerFile) : (t.put place (.ledger f)).isBarred place .log = false :=
    (isBarred_put _).trans h
  change (t.changeLedger (.file place) _).isBarred place .log = false
  rw [changeLedger]
  dsimp only [putLedger]
  split
  · exact hput _
  · rw [isBarred_of_find? (find?_eraseSide_of_ne (SideFile.of_ne_of hne place))]
    exact hput _

/-- A ledger is found where it was changed. -/
theorem ledgerAt_changeLedger (t : FileTree) (home : Home) (f : LedgerFile) :
    (t.changeLedger home f).ledgerAt home = f := by
  have hput : (t.putLedger home f).ledgerAt home = f :=
    (ledgerAt_putLedger t home home f).trans (if_pos rfl)
  cases home with
  | memory name => exact hput
  | file place =>
    rw [changeLedger]
    split
    · exact hput
    · rw [ledgerAt_of_find? (find?_eraseSide_of_ne (SideFile.of_ne .journal place).symm)]
      exact hput

/-- The ledger in a file has a schema once it is opened, and there may be a log. -/
theorem log_free_openHome {a : Files.Address} {s : StoreSettings} {session : Session}
    (hfree : t.isBarred place .log = false)
    (hanswer : (openHome (.file place) a s t).answer = .ok session) :
    (openHome (.file place) a s t).state.isBarred place .log = false ∧
      ((openHome (.file place) a s t).state.ledgerAt (.file place)).database ≠ .blank := by
  rw [openHome] at hanswer ⊢
  obtain ⟨may, -, hanswer, hstate⟩ := bind_eq_ok hanswer
  rw [hstate]
  obtain ⟨u, hprepared, -, hstate⟩ := bind_eq_ok hanswer
  rw [hstate]
  refine ⟨keeps_log_free (LedgerFile.prepareSchema may) t hfree, ?_⟩
  change (LedgerFile.prepareSchema may (t.ledgerAt (.file place))).answer = .ok u at hprepared
  change ((t.changeLedger (.file place)
    (LedgerFile.prepareSchema may (t.ledgerAt (.file place))).state).ledgerAt _).database ≠ _
  rw [ledgerAt_changeLedger]
  exact (LedgerFile.isComplete_prepareSchema hprepared).ne_blank

/-- Behind a session that was opened, nothing is in the place of the log. -/
theorem log_free_openFile {a : Files.Address} {s : StoreSettings} {mayWrite : Bool}
    {readers : List Bool}
    (hanswer : (openFile place a s t).answer = .ok (.ledger (.file place) mayWrite readers)) :
    (openFile place a s t).state.isBarred place .log = false ∧
      ((openFile place a s t).state.ledgerAt (.file place)).database ≠ .blank := by
  rw [openFile] at hanswer ⊢
  obtain ⟨_, -, hanswer, hstate⟩ := bind_eq_ok hanswer
  rw [hstate]
  split at hanswer
  · obtain ⟨_, -, hanswer, -⟩ := bind_eq_ok hanswer
    obtain ⟨_, -, hanswer, -⟩ := bind_eq_ok hanswer
    obtain ⟨_, -, hanswer, -⟩ := bind_eq_ok hanswer
    cases Except.ok.inj hanswer
  · next hmutable =>
    rw [if_neg hmutable]
    split at hanswer
    · next hunshared =>
      rw [if_pos hunshared]
      obtain ⟨_, hleave, hanswer, hstate⟩ := bind_eq_ok hanswer
      rw [hstate]
      refine log_free_openHome ?_ hanswer
      rw [leaveJournal] at hleave ⊢
      obtain ⟨_, -, hleave, hstate⟩ := bind_eq_ok hleave
      rw [hstate]
      obtain ⟨_, henter, -, hstate⟩ := bind_eq_ok hleave
      rw [hstate]
      exact log_free_of_enter henter
    · next hshared =>
      rw [if_neg hshared]
      obtain ⟨_, hset, hanswer, hstate⟩ := bind_eq_ok hanswer
      rw [hstate]
      refine log_free_openHome ?_ hanswer
      rw [setUpJournal] at hset ⊢
      obtain ⟨_, henter, hset, hstate⟩ := bind_eq_ok hset
      rw [hstate]
      exact ((Keeps.look _).bind fun may => keeps_log_free (LedgerFile.setJournal may _)) _
        (log_free_of_enter henter)

/-- A session that is opened on a ledger that nobody uses finds it with its log. -/
theorem hasLog_openStore {s : StoreSettings} {mayWrite : Bool} {readers : List Bool}
    (hanswer : (openStore s t).answer = .ok (.ledger (.file place) mayWrite readers))
    (hidle : ((openStore s t).state.ledgerAt (.file place)).attached = false) :
    (openStore s t).state.HasLog place := by
  obtain ⟨-, a, -, hopened, hstate⟩ := openAddress_of_openStore hanswer
  obtain ⟨-, hfile, hsame⟩ := openFile_of_openAddress hopened
  rw [hstate, hsame] at hidle ⊢
  obtain ⟨hfree, hdatabase⟩ := log_free_openFile hfile
  exact .of_idle hfree hdatabase hidle

/-- The session of a store is apart from where its settings are. -/
theorem isApart_of_openStore {s : StoreSettings} {session : Session}
    (hanswer : (openStore s t).answer = .ok session) (hs : s.IsApart place) :
    session.IsApart place := by
  rintro home mayWrite readers rfl other rfl
  obtain ⟨-, a, haddress, hopened, -⟩ := openAddress_of_openStore hanswer
  exact hs a other haddress (openFile_of_openAddress hopened).1 other rfl

end FileTree

end JobLedger
