import JobLedger.Proofs.Files.Undisturbed

/-!
# Stores that are opened on a new file

A store that is opened where there is no database makes one with a complete schema and without rows.
It has that to itself from the beginning, if nothing is left beside the file.
-/

namespace JobLedger

open JobLedger.Action

/-- A change of the journal of a blank ledger leaves it blank. -/
theorem LedgerFile.keeps_setJournal (mayWrite : Bool) (mode : JournalMode) :
    Keeps (fun f => ∃ journal, f = { blank with journal }) (setJournal mayWrite mode) := by
  refine Keeps.change fun f _ next hnext hf => ?_
  obtain ⟨journal, rfl⟩ := hf
  have hsettle : settle { blank with journal } = { blank with journal } := rfl
  rw [hsettle] at hnext
  split at hnext
  · exact nomatch hnext
  · split at hnext
    · exact ⟨journal, (Prod.mk.inj (Except.ok.inj hnext)).2.symm⟩
    · split at hnext
      · exact nomatch hnext
      · split at hnext
        · exact nomatch hnext
        · exact ⟨mode, (Prod.mk.inj (Except.ok.inj hnext)).2.symm⟩

/-- The complete schema without rows is that of the empty ledger. -/
theorem Memory.database_empty :
    empty.database =
      { versions := some [.int schemaVersion]
        instances := some .empty, executions := some .empty, steps := some .empty
        jobStatuses := some .empty, stepStatuses := some .empty, checkpoints := some []
        indexes := ⟨true, true, true, true⟩ } := by
  have hjobStatuses : empty.jobStatusTable = .empty :=
    congrArg (Table.mk · 0) (List.mergeSort_nil ..)
  have hstepStatuses : empty.stepStatusTable = .empty :=
    congrArg (Table.mk · 0) (List.mergeSort_nil ..)
  rw [database, hjobStatuses, hstepStatuses]
  rfl

/-- The schema of a blank ledger is completed, or the ledger is left. -/
theorem LedgerFile.prepareSchema_blank {mayWrite : Bool} {journal : JournalMode}
    (hanswer : (prepareSchema mayWrite { blank with journal }).answer = .ok ()) :
    (prepareSchema mayWrite { blank with journal }).state =
      { blank with journal, database := Memory.empty.database } := by
  rw [Memory.database_empty]
  cases mayWrite with
  | false => exact nomatch hanswer
  | true => rfl

namespace FileTree

/-- The ledger at a place is a blank one, and nothing is in its way. -/
def IsBlankAt (t : FileTree) (place : Place) : Prop :=
  ∃ journal, t.Guarded place { LedgerFile.blank with journal }

/-- Entering a place where there is no database leaves none. -/
theorem keeps_enter (place : Place) (mayWrite : Bool) (mode : JournalMode) :
    Keeps (fun t => t.IsBlankAt place) (enter place mayWrite mode) := by
  refine (Keeps.look _).bind fun _ => Keeps.change fun t _ next hnext ht => ?_
  obtain ⟨journal, hguarded⟩ := ht
  rw [hguarded.dropJournal] at hnext
  obtain rfl := (Prod.mk.inj (Except.ok.inj hnext)).2
  exact ⟨journal, hguarded⟩

/-- Setting up a journal makes no database. -/
theorem keeps_setUpJournal (place : Place) (mayWrite : Bool) (mode : JournalMode) :
    Keeps (fun t => t.IsBlankAt place) (setUpJournal place mayWrite mode) := by
  refine (keeps_enter place mayWrite mode).bind fun _ => (Keeps.look _).bind fun may => ?_
  rintro t ⟨journal, hguarded⟩
  obtain ⟨next, hnext⟩ := LedgerFile.keeps_setJournal may mode _ ⟨journal, rfl⟩
  refine ⟨next, ?_⟩
  change (t.changeLedger (.file place)
    (LedgerFile.setJournal may mode (t.ledgerAt (.file place))).state).Guarded place _
  rw [hguarded.ledgerAt, hnext]
  exact hguarded.changeLedger _ rfl rfl

/-- Leaving a journal makes no database. -/
theorem keeps_leaveJournal (place : Place) (mayWrite : Bool) (mode : JournalMode) :
    Keeps (fun t => t.IsBlankAt place) (leaveJournal place mayWrite mode) :=
  (Keeps.look _).bind fun _ => (keeps_enter place mayWrite .delete).bind fun _ => Keeps.reportAll _

/-- A ledger that is claimed where there is no file is a blank one. -/
theorem isBlankAt_claim {t : FileTree} {place : Place} {mode : Files.OpenMode}
    (hfree : t.find? place = none) (hclear : t.IsClear place)
    (hanswer : (claim mode place t).answer = .ok ()) :
    (claim mode place t).state.IsBlankAt place := by
  have hclaimed := change_eq_ok hanswer
  obtain ⟨f, hfound, hput⟩ := bind_eq_ok_iff.mp hclaimed
  rw [findLedger, hfree] at hfound
  dsimp only at hfound
  split at hfound
  · obtain rfl := Except.ok.inj hfound
    have hstate := (Prod.mk.inj (Except.ok.inj hput)).2
    refine ⟨.delete, ?_⟩
    rw [claim, ← hstate]
    exact hclear.guarded (f := .blank) rfl rfl
  · exact nomatch hfound

/-- The schema of a blank ledger is completed by a session that has it to itself. -/
theorem holds_openHome {t : FileTree} {place : Place} {a : Files.Address} {s : StoreSettings}
    (hblank : t.IsBlankAt place) {session : Session}
    (hanswer : (openHome (.file place) a s t).answer = .ok session)
    (hwrite : a.mayWrite = true) :
    OpenLedger.Holds ⟨(openHome (.file place) a s t).state, session⟩ Memory.empty := by
  obtain ⟨journal, hguarded⟩ := hblank
  rw [openHome] at hanswer ⊢
  obtain ⟨may, -, hanswer, hstate⟩ := bind_eq_ok hanswer
  rw [hstate]
  obtain ⟨_, hprepared, hanswer, hstate⟩ := bind_eq_ok hanswer
  rw [hstate]
  obtain rfl := Except.ok.inj hanswer
  change (LedgerFile.prepareSchema may (t.ledgerAt (.file place))).answer = .ok () at hprepared
  change OpenLedger.Holds ⟨t.changeLedger (.file place)
    (LedgerFile.prepareSchema may (t.ledgerAt (.file place))).state, _⟩ _
  rw [hguarded.ledgerAt] at hprepared ⊢
  rw [LedgerFile.prepareSchema_blank hprepared, hwrite]
  have hchanged := hguarded.changeLedger
    { LedgerFile.blank with journal, database := Memory.empty.database } rfl rfl
  refine ⟨place, _, _, rfl, ⟨hchanged, fun hlog => ?_⟩, rfl⟩
  simp [LedgerFile.isInLog, LedgerFile.isLogged, LedgerFile.blank] at hlog

/-- What may be written is not immutable. -/
theorem isImmutable_of_mayWrite {a : Files.Address} (h : a.mayWrite = true) :
    a.isImmutable = false := by
  rw [Files.Address.mayWrite, Bool.and_eq_true, Bool.not_eq_true'] at h
  exact h.2

/-- A store that is opened on a file that was not there has an empty ledger to itself. -/
theorem holds_openFile {t : FileTree} {place : Place} {a : Files.Address} {s : StoreSettings}
    (hfree : t.find? place = none) (hclear : t.IsClear place) (hwrite : a.mayWrite = true)
    {session : Session} (hanswer : (openFile place a s t).answer = .ok session) :
    OpenLedger.Holds ⟨(openFile place a s t).state, session⟩ Memory.empty := by
  have hmutable := isImmutable_of_mayWrite hwrite
  rw [openFile] at hanswer ⊢
  obtain ⟨_, hclaim, hanswer, hstate⟩ := bind_eq_ok hanswer
  rw [hstate]
  have hblank := isBlankAt_claim hfree hclear hclaim
  rw [hmutable] at hanswer ⊢
  rw [if_neg nofun] at hanswer ⊢
  split at hanswer
  · next hunshared =>
    rw [if_pos hunshared]
    obtain ⟨_, -, hanswer, hstate⟩ := bind_eq_ok hanswer
    rw [hstate]
    exact holds_openHome (keeps_leaveJournal _ _ _ _ hblank) hanswer hwrite
  · next hunshared =>
    rw [if_neg hunshared]
    obtain ⟨_, -, hanswer, hstate⟩ := bind_eq_ok hanswer
    rw [hstate]
    exact holds_openHome (keeps_setUpJournal _ _ _ _ hblank) hanswer hwrite

/-- A session that was opened at home has readers that have not read yet. -/
theorem session_openHome {t : FileTree} {home : Home} {a : Files.Address} {s : StoreSettings}
    {session : Session} (hanswer : (openHome home a s t).answer = .ok session) :
    session = .ledger home a.mayWrite (freshReaders s) := by
  rw [openHome] at hanswer
  obtain ⟨_, -, hanswer, -⟩ := bind_eq_ok hanswer
  obtain ⟨_, -, hanswer, -⟩ := bind_eq_ok hanswer
  exact (Except.ok.inj hanswer).symm

/-- A session on the ledger in a file was opened at its place. -/
theorem session_openFile {t : FileTree} {place other : Place} {a : Files.Address}
    {s : StoreSettings} {mayWrite : Bool} {readers : List Bool}
    (hanswer : (openFile other a s t).answer = .ok (.ledger (.file place) mayWrite readers)) :
    place = other ∧ mayWrite = a.mayWrite := by
  rw [openFile] at hanswer
  obtain ⟨_, -, hanswer, -⟩ := bind_eq_ok hanswer
  split at hanswer
  · rw [openFixed] at hanswer
    obtain ⟨_, -, hanswer, -⟩ := bind_eq_ok hanswer
    obtain ⟨_, -, hanswer, -⟩ := bind_eq_ok hanswer
    obtain ⟨_, -, hanswer, -⟩ := bind_eq_ok hanswer
    exact nomatch Except.ok.inj hanswer
  · have hsession : ∃ u : FileTree, (openHome (.file other) a s u).answer =
        .ok (.ledger (.file place) mayWrite readers) := by
      split at hanswer
      · obtain ⟨_, -, hanswer, -⟩ := bind_eq_ok hanswer
        exact ⟨_, hanswer⟩
      · obtain ⟨_, -, hanswer, -⟩ := bind_eq_ok hanswer
        exact ⟨_, hanswer⟩
    obtain ⟨_, hanswer⟩ := hsession
    injection session_openHome hanswer with hhome hwrite
    exact ⟨Home.file.inj hhome, hwrite⟩

/-- An answer that is not the error for nothing is what was found. -/
theorem eq_some_of_elim {ε α : Type} {found : Option α} {e : ε} {a : α}
    (h : found.elim (.error e) Except.ok = .ok a) : found = some a := by
  cases found with
  | none => exact nomatch h
  | some b => exact congrArg some (Except.ok.inj h)

/-- The place of a database is the one that its name spells. -/
theorem placeOf_of_databasePlace? {t : FileTree} {name : String} {place : Place}
    (h : t.databasePlace? name = some place) : placeOf name = place := by
  rw [databasePlace?] at h
  split at h
  · exact nomatch h
  · exact Option.some.inj h

/-- An address is that of the file at a place. -/
def LeadsTo (a : Files.Address) (place : Place) : Prop :=
  ∃ name, a.site = .file name ∧ placeOf name = place

/-- A session on the ledger in a file comes from opening that file. -/
theorem openFile_of_openAddress {t : FileTree} {place : Place} {a : Files.Address}
    {s : StoreSettings} {mayWrite : Bool} {readers : List Bool}
    (hanswer : (openAddress a s t).answer = .ok (.ledger (.file place) mayWrite readers)) :
    LeadsTo a place ∧
      (openFile place a s t).answer = .ok (.ledger (.file place) mayWrite readers) ∧
        (openAddress a s t).state = (openFile place a s t).state := by
  cases hsite : a.site with
  | memory | scratch =>
    rw [openAddress, hsite] at hanswer
    obtain ⟨_, -, hanswer, -⟩ := bind_eq_ok hanswer
    obtain ⟨_, -, hanswer, -⟩ := bind_eq_ok hanswer
    obtain ⟨_, -, hanswer, -⟩ := bind_eq_ok hanswer
    exact nomatch Except.ok.inj hanswer
  | sharedMemory name =>
    rw [openAddress, hsite] at hanswer
    obtain ⟨_, -, hanswer, -⟩ := bind_eq_ok hanswer
    injection session_openHome hanswer with hhome
    exact nomatch hhome
  | file name =>
    rw [openAddress, hsite] at hanswer ⊢
    obtain ⟨_, -, hanswer, hstate⟩ := bind_eq_ok hanswer
    rw [hstate]
    obtain ⟨other, hother, hanswer, hstate⟩ := bind_eq_ok hanswer
    rw [hstate]
    obtain ⟨session, hopened, hanswer, hstate⟩ := bind_eq_ok hanswer
    rw [hstate]
    change (openFile other a s t).answer = .ok session at hopened
    have hsession : session = .ledger (.file place) mayWrite readers := by
      rw [look_apply] at hanswer
      dsimp only at hanswer
      split at hanswer
      · exact nomatch hanswer
      · exact Except.ok.inj hanswer
    subst hsession
    obtain ⟨rfl, -⟩ := session_openFile hopened
    exact ⟨⟨name, hsite, placeOf_of_databasePlace? (eq_some_of_elim hother)⟩, hopened, rfl⟩

/-- A store is opened once the directories on the way are made and its address is read. -/
theorem openAddress_of_openStore {t : FileTree} {s : StoreSettings} {session : Session}
    (hanswer : (openStore s t).answer = .ok session) :
    (makeParent s.path t).answer = .ok () ∧ ∃ a, Files.Address.ofPath? s.path = some a ∧
      (openAddress a s (makeParent s.path t).state).answer = .ok session ∧
        (openStore s t).state = (openAddress a s (makeParent s.path t).state).state := by
  rw [openStore] at hanswer ⊢
  obtain ⟨_, -, hanswer, hstate⟩ := bind_eq_ok hanswer
  rw [hstate]
  obtain ⟨_, hmade, hanswer, hstate⟩ := bind_eq_ok hanswer
  rw [hstate]
  obtain ⟨a, haddress, hanswer, hstate⟩ := bind_eq_ok hanswer
  rw [hstate]
  rw [ofOption_apply] at haddress hanswer ⊢
  obtain ⟨opened, hopened, hanswer, hstate⟩ := bind_eq_ok hanswer
  rw [hstate]
  obtain ⟨_, -, hanswer, hstate⟩ := bind_eq_ok hanswer
  rw [hstate]
  obtain rfl := Except.ok.inj hanswer
  exact ⟨hmade, a, eq_some_of_elim haddress, hopened, rfl⟩

end FileTree

/-- A store was opened for writing, under settings, on a file that was not there, and nothing was left
beside that. -/
structure OpenLedger.OpenedAt (t : FileTree) (s : StoreSettings) (place : Place) (l : OpenLedger) :
    Prop where
  answer : (FileTree.openStore s t).answer = .ok l.session
  files : (FileTree.openStore s t).state = l.files
  session : ∃ readers, l.session = .ledger (.file place) true readers
  free : (FileTree.makeParent s.path t).state.find? place = none
  clear : (FileTree.makeParent s.path t).state.IsClear place

/-- A store that is opened on a new file has an empty ledger to itself. -/
theorem OpenLedger.OpenedAt.holds {t : FileTree} {s : StoreSettings} {place : Place}
    {l : OpenLedger} (h : OpenedAt t s place l) : l.Holds Memory.empty := by
  obtain ⟨files, session⟩ := l
  obtain ⟨hanswer, rfl, ⟨readers, rfl⟩, hfree, hclear⟩ := h
  obtain ⟨-, a, -, haddress, hstate⟩ := FileTree.openAddress_of_openStore hanswer
  rw [hstate]
  obtain ⟨-, hopened, hstate⟩ := FileTree.openFile_of_openAddress haddress
  rw [hstate]
  exact FileTree.holds_openFile hfree hclear (FileTree.session_openFile hopened).2.symm hopened

/-- The session that is opened on a new file in the working directory. -/
def OpenLedger.atStart : OpenLedger :=
  ⟨(FileTree.openStore { path := "ledger.db" } .start).state,
    .ledger (.file ["work", "ledger.db"]) true [false, false, false, false]⟩

/-- The session at the start was opened on a new file. -/
theorem OpenLedger.openedAt_atStart :
    OpenedAt .start { path := "ledger.db" } ["work", "ledger.db"] atStart where
  answer := by rfl
  files := rfl
  session := ⟨_, rfl⟩
  free := by decide +kernel
  clear := ⟨by decide +kernel, by decide +kernel, by decide +kernel⟩

end JobLedger
