import JobLedger.Proofs.Files.Directories

/-!
# Stores that are opened again

A ledger rests in its file when nobody uses it. Opening the store again claims the file that is there,
may change how its journal is kept, and completes the schema. That the schema of a ledger is complete
already leaves its database as it is, whether the store is opened in the end or not.
-/

namespace JobLedger

open JobLedger.Action

/-- A kind of databases that completing the schema does not lead out of. -/
def Database.KeptByPrepare (D : Database → Prop) : Prop :=
  ∀ {obstacle : Option Obstacle} {db next : Database} {created : List SchemaObject}, D db →
    db.prepare obstacle = .ok (created, next) → D next

/-- The schema of a ledger is complete. -/
theorem Memory.prepare_database (m : Memory) (obstacle : Option Obstacle) :
    m.database.prepare obstacle = .ok ([], m.database) := rfl

/-- Preparing the schema of a ledger leaves its database. -/
theorem Memory.keptByPrepare_database (m : Memory) :
    Database.KeptByPrepare (· = m.database) := by
  rintro obstacle _ next created rfl hprepare
  rw [m.prepare_database] at hprepare
  exact (Prod.mk.inj (Except.ok.inj hprepare)).2.symm

namespace LedgerFile

variable {D : Database → Prop}

/-- Nobody uses a ledger or has it locked, and its database is of a kind. -/
structure Rests (D : Database → Prop) (f : LedgerFile) : Prop where
  lock_none : f.lock = none
  settled_some : f.settled.isSome
  attached_false : f.attached = false
  database : D f.database

/-- A ledger that rests stays as it is when it is settled. -/
theorem Rests.settle {f : LedgerFile} (h : f.Rests D) : f.settle.Rests D := by
  have hidle : ¬ (f.attached || f.lock.isSome) = true := by
    rw [h.attached_false, h.lock_none]
    exact nofun
  rw [LedgerFile.settle, if_neg hidle]
  exact ⟨h.lock_none, rfl, h.attached_false, h.database⟩

/-- Setting the journal of a ledger that rests leaves its database. -/
theorem Rests.keeps_setJournal (mayWrite : Bool) (mode : JournalMode) :
    Keeps (Rests D) (setJournal mayWrite mode) := by
  refine Keeps.change fun f _ next hnext hf => ?_
  have hsettle := hf.settle
  split at hnext
  · exact nomatch hnext
  · split at hnext
    · rwa [← (Prod.mk.inj (Except.ok.inj hnext)).2]
    · split at hnext
      · exact nomatch hnext
      · split at hnext
        · exact nomatch hnext
        · rw [← (Prod.mk.inj (Except.ok.inj hnext)).2]
          exact ⟨hsettle.lock_none, hsettle.settled_some, hsettle.attached_false, hsettle.database⟩

/-- Preparing the schema of a ledger that rests leaves its database. -/
theorem Rests.keeps_prepareSchema (hD : Database.KeptByPrepare D) (mayWrite : Bool) :
    Keeps (Rests D) (prepareSchema mayWrite) := by
  refine (Keeps.change fun f created next hnext hf => ?_).bind fun _ => Keeps.reportAll _
  obtain ⟨⟨made, db⟩, hprepare, hdone⟩ := bind_eq_ok_iff.mp hnext
  rw [← (Prod.mk.inj (Except.ok.inj hdone)).2]
  exact ⟨hf.lock_none, hf.settled_some, hf.attached_false, hD hf.database hprepare⟩

end LedgerFile

namespace FileTree

open Files

/-- The ledger at a place rests, nothing is in its way, and directories that were there are there
still. -/
def RestsAt (first : FileTree) (place : Place) (D : Database → Prop) (t : FileTree) : Prop :=
  first.KeepsDirectories t ∧ ∃ f, t.Guarded place f ∧ f.Rests D

namespace RestsAt

variable {first : FileTree} {place : Place} {D : Database → Prop}

/-- An action on a ledger that keeps it at rest keeps the files so. -/
theorem keeps_onLedger {ε α : Type} {x : Action ε LedgerFile α}
    (hx : Keeps (LedgerFile.Rests D) x) :
    Keeps (RestsAt first place D) (onLedger (.file place) x) := by
  rintro t ⟨hdirectories, f, hguarded, hrests⟩
  have hnext := hx f hrests
  change RestsAt first place D
    (t.changeLedger (.file place) (x (t.ledgerAt (.file place))).state)
  rw [hguarded.ledgerAt]
  exact ⟨hdirectories.trans (.changeLedger hguarded _), _,
    hguarded.changeLedger _ hnext.lock_none hnext.settled_some, hnext⟩

/-- What is claimed where nothing is in the way rests there. -/
theorem of_claim {t : FileTree} {mode : OpenMode} (hdirectories : first.KeepsDirectories t)
    (hclear : t.IsClear place) (hrests : ∀ f, t.findLedger mode place = .ok f → f.Rests D)
    (hanswer : (claim mode place t).answer = .ok ()) :
    RestsAt first place D (claim mode place t).state := by
  obtain ⟨f, hfound, hput⟩ := bind_eq_ok_iff.mp (change_eq_ok hanswer)
  have hstate := (Prod.mk.inj (Except.ok.inj hput)).2
  have hfree : t.isDirectoryAt place = false := by
    rw [isDirectoryAt]
    refine decide_eq_false fun hdirectory => ?_
    rw [findLedger, hdirectory] at hfound
    cases hfound
  have hf := hrests f hfound
  rw [claim, ← hstate]
  exact ⟨hdirectories.trans (.put hfree _), f, hclear.guarded hf.lock_none hf.settled_some, hf⟩

/-- A database that rests at a place is claimed as it is. -/
theorem keeps_claim (mode : OpenMode) :
    Keeps (RestsAt first place D) (claim mode place) := by
  rintro t ⟨hdirectories, f, hguarded, hrests⟩
  cases hanswer : (claim mode place t).answer with
  | ok a =>
    refine of_claim hdirectories hguarded.toIsClear (fun other hother => ?_) hanswer
    rw [findLedger, hguarded.entry] at hother
    exact Except.ok.inj hother ▸ hrests
  | error e =>
    have hfound : t.findLedger mode place = .ok f := by rw [findLedger, hguarded.entry]
    rw [claim, change, hfound] at hanswer
    cases hanswer

/-- A ledger that rests is entered as it is. -/
theorem keeps_enter (mayWrite : Bool) (mode : JournalMode) :
    Keeps (RestsAt first place D) (enter place mayWrite mode) := by
  refine (Keeps.look _).bind fun _ => Keeps.change fun t _ next hnext ht => ?_
  obtain ⟨hdirectories, f, hguarded, hrests⟩ := ht
  rw [hguarded.dropJournal] at hnext
  obtain rfl := (Prod.mk.inj (Except.ok.inj hnext)).2
  exact ⟨hdirectories, f, hguarded, hrests⟩

/-- Setting up a journal keeps a ledger at rest. -/
theorem keeps_setUpJournal (mayWrite : Bool) (mode : JournalMode) :
    Keeps (RestsAt first place D) (setUpJournal place mayWrite mode) :=
  (keeps_enter mayWrite mode).bind fun _ => (Keeps.look _).bind fun may =>
    keeps_onLedger (LedgerFile.Rests.keeps_setJournal may mode)

/-- Leaving a journal keeps a ledger at rest. -/
theorem keeps_leaveJournal (mayWrite : Bool) (mode : JournalMode) :
    Keeps (RestsAt first place D) (leaveJournal place mayWrite mode) :=
  (Keeps.look _).bind fun _ => (keeps_enter mayWrite .delete).bind fun _ => Keeps.reportAll _

variable (hD : Database.KeptByPrepare D)

include hD

/-- Opening a ledger where it is keeps it at rest. -/
theorem keeps_openHome (a : Address) (s : StoreSettings) :
    Keeps (RestsAt first place D) (openHome (.file place) a s) :=
  (Keeps.look _).bind fun may =>
    (keeps_onLedger (LedgerFile.Rests.keeps_prepareSchema hD may)).bind fun _ => Keeps.answer _

/-- What opening the file does once that is claimed. -/
theorem keeps_openClaimed (a : Address) (s : StoreSettings) :
    Keeps (RestsAt first place D)
      (if a.isUnshared then
        leaveJournal place a.mayWrite s.journalMode >>= fun _ => openHome (.file place) a s
      else setUpJournal place a.mayWrite s.journalMode >>= fun _ => openHome (.file place) a s) := by
  split
  · exact (keeps_leaveJournal _ _).bind fun _ => keeps_openHome hD a s
  · exact (keeps_setUpJournal _ _).bind fun _ => keeps_openHome hD a s

omit hD in
/-- A file that may be written is claimed, entered, and opened. -/
theorem openFile_eq {a : Address} (hmutable : a.isImmutable = false) (s : StoreSettings) :
    openFile place a s = claim a.mode place >>= fun _ =>
      if a.isUnshared then
        leaveJournal place a.mayWrite s.journalMode >>= fun _ => openHome (.file place) a s
      else setUpJournal place a.mayWrite s.journalMode >>= fun _ => openHome (.file place) a s := by
  rw [openFile, hmutable]
  rfl

/-- Opening a file keeps the ledger in it at rest. -/
theorem keeps_openFile {a : Address} (hmutable : a.isImmutable = false) (s : StoreSettings) :
    Keeps (RestsAt first place D) (openFile place a s) := by
  rw [openFile_eq hmutable]
  exact (keeps_claim a.mode).bind fun _ => keeps_openClaimed hD a s

/-- The ledger rests in a file that is opened where there was none. -/
theorem of_openFile {t : FileTree} {a : Address} {s : StoreSettings} {session : Session}
    (hmutable : a.isImmutable = false) (hdirectories : first.KeepsDirectories t)
    (hclear : t.IsClear place) (hrests : ∀ f, t.findLedger a.mode place = .ok f → f.Rests D)
    (hanswer : (openFile place a s t).answer = .ok session) :
    RestsAt first place D (openFile place a s t).state := by
  rw [openFile_eq hmutable] at hanswer ⊢
  obtain ⟨_, hclaim, -, hstate⟩ := bind_eq_ok hanswer
  rw [hstate]
  exact keeps_openClaimed hD a s _ (of_claim hdirectories hclear hrests hclaim)

variable {a : Address} (hsite : LeadsTo a place) (hmutable : a.isImmutable = false)

include hsite hmutable

/-- Opening an address keeps the ledger that it leads to at rest. -/
theorem keeps_openAddress (s : StoreSettings) :
    Keeps (RestsAt first place D) (openAddress a s) := by
  obtain ⟨name, hsite, hplace⟩ := hsite
  rw [openAddress, hsite]
  refine (Keeps.look _).bind fun _ => (Keeps.look _).bind_of (A := (· = place))
    (fun t other _ hfound => ?_) fun other hother => ?_
  · exact (placeOf_of_databasePlace? (eq_some_of_elim hfound)).symm.trans hplace
  · subst hother
    exact (keeps_openFile hD hmutable s).bind fun _ => Keeps.look _

/-- A store is opened again by a path whose directories have been made. -/
theorem keeps_openStore {t : FileTree} {s : StoreSettings}
    (haddress : Address.ofPath? s.path = some a) (hmade : (makeParent s.path t).answer = .ok ()) :
    Keeps (RestsAt (makeParent s.path t).state place D) (openStore s) := by
  have hparent : Keeps (RestsAt (makeParent s.path t).state place D) (makeParent s.path) := by
    intro u hu
    rw [makeParent_of_keepsDirectories hmade hu.1]
    exact hu
  refine (Keeps.look _).bind fun _ => hparent.bind fun _ => (Keeps.ofOption _ _).bind_of
    (A := (· = a)) (fun u other _ hfound => ?_) fun other hother => ?_
  · rw [haddress] at hfound
    exact (Except.ok.inj hfound).symm
  · subst hother
    exact (keeps_openAddress hD hsite hmutable s).bind fun _ => (Keeps.report _).bind fun _ =>
      Keeps.answer _

end RestsAt

/-! ## Sessions that are opened again -/

section Sessions

variable {place : Place} {a : Address} {s : StoreSettings} {session : Session}
  (hwrite : a.mayWrite = true)

include hwrite

/-- A session that was opened on a file has readers that have not read yet. -/
theorem session_of_openFile {t : FileTree}
    (hanswer : (openFile place a s t).answer = .ok session) :
    session = .ledger (.file place) true (freshReaders s) := by
  rw [RestsAt.openFile_eq (isImmutable_of_mayWrite hwrite)] at hanswer
  obtain ⟨_, -, hanswer, -⟩ := bind_eq_ok hanswer
  rw [← hwrite]
  split at hanswer
  · obtain ⟨_, -, hanswer, -⟩ := bind_eq_ok hanswer
    exact session_openHome hanswer
  · obtain ⟨_, -, hanswer, -⟩ := bind_eq_ok hanswer
    exact session_openHome hanswer

/-- A session that is opened by an address of a file is on the ledger in it. -/
theorem session_of_openAddress {t : FileTree} (hsite : LeadsTo a place)
    (hanswer : (openAddress a s t).answer = .ok session) :
    session = .ledger (.file place) true (freshReaders s) := by
  obtain ⟨name, hsite, hplace⟩ := hsite
  rw [openAddress, hsite] at hanswer
  obtain ⟨_, -, hanswer, -⟩ := bind_eq_ok hanswer
  obtain ⟨other, hother, hanswer, -⟩ := bind_eq_ok hanswer
  obtain ⟨opened, hopened, hanswer, -⟩ := bind_eq_ok hanswer
  have hsame : opened = session := by
    rw [look_apply] at hanswer
    dsimp only at hanswer
    split at hanswer
    · cases hanswer
    · exact Except.ok.inj hanswer
  subst hsame
  obtain rfl : place = other :=
    hplace.symm.trans (placeOf_of_databasePlace? (eq_some_of_elim hother))
  exact session_of_openFile hwrite hopened

end Sessions

variable {first t : FileTree} {place : Place} {f : LedgerFile} {db : Database}

/-- A session that is over leaves its ledger to rest. -/
theorem Undisturbed.restsAt_detach (h : t.Undisturbed place f) (hdatabase : f.database = db)
    (hdirectories : first.KeepsDirectories t) (mayWrite : Bool) (readers : List Bool) :
    RestsAt first place (· = db) (t.detach (.ledger (.file place) mayWrite readers)) := by
  rw [detach, h.ledgerAt]
  split
  · refine ⟨hdirectories.trans (.closeLog h.toGuarded), { f with attached := false }.settle, ?_⟩
    have hrests : { f with attached := false, settled := some f.database }.Rests
        (· = db) := ⟨h.lock_none, rfl, rfl, hdatabase⟩
    have hsettle : { f with attached := false }.settle =
        { f with attached := false, settled := some f.database } := by
      rw [LedgerFile.settle, h.lock_none]
      rfl
    rw [closeLog, h.isTorn, if_neg nofun, h.ledgerAt, hsettle]
    have hput := h.toIsClear.guarded hrests.lock_none hrests.settled_some
    exact ⟨(hput.eraseSide .log).eraseSide .index, hrests⟩
  · next hidle =>
    exact ⟨hdirectories, f, h.toGuarded, h.lock_none, h.settled_some,
      (Bool.not_eq_true _).mp hidle, hdatabase⟩

end FileTree

namespace OpenLedger

/-- A session has the file at a place to itself, and keeps a database there. Directories that were
there are there still. -/
def KeepsAt (first : FileTree) (place : Place) (l : OpenLedger) (db : Database) : Prop :=
  ∃ readers f, l.session = .ledger (.file place) true readers ∧ l.files.Undisturbed place f ∧
    f.database = db ∧ first.KeepsDirectories l.files

/-- A session has the ledger in the file at a place to itself, and directories that were there are
there still. -/
def HoldsAt (first : FileTree) (place : Place) (l : OpenLedger) (m : Memory) : Prop :=
  ∃ readers f, l.session = .ledger (.file place) true readers ∧ l.files.Undisturbed place f ∧
    f.database = m.database ∧ first.KeepsDirectories l.files

variable {first : FileTree} {place : Place}

namespace KeepsAt

variable {l : OpenLedger} {db : Database} (h : KeepsAt first place l db)

include h

/-- A session keeps what is written. -/
theorem keep {next : Database} (hnext : next ≠ .blank) :
    KeepsAt first place (l.keep next) next := by
  obtain ⟨t, session⟩ := l
  obtain ⟨readers, f, rfl, hfile, hdatabase, hdirectories⟩ := h
  obtain ⟨after, attached, others, hkeep, hafter⟩ := keep_undisturbed hfile true readers hnext
  have hstays : t.KeepsDirectories after := by
    have hfiles := congrArg OpenLedger.files hkeep
    rw [OpenLedger.keep] at hfiles
    dsimp only at hfiles
    rw [← hfiles, hfile.ledgerAt]
    exact .trans (.changeLedger hfile.toGuarded _)
      (.attach (hfile.changeLedger next).toGuarded true readers)
  rw [hkeep]
  exact ⟨others, _, rfl, hafter, rfl, hdirectories.trans hstays⟩

/-- A session keeps its database when a reader has had its turn. -/
theorem turn (hblank : db ≠ .blank) : KeepsAt first place l.turn db := by
  obtain ⟨t, session⟩ := l
  obtain ⟨readers, f, rfl, hfile, hdatabase, hdirectories⟩ := h
  obtain ⟨after, attached, others, hturn, hafter⟩ :=
    turn_undisturbed hfile true readers (hdatabase ▸ hblank)
  have hstays : t.KeepsDirectories after := by
    have hfiles := congrArg OpenLedger.files hturn
    cases readers with
    | nil =>
      obtain rfl : t = after := hfiles
      exact .refl t
    | cons reader rest =>
      rw [OpenLedger.turn] at hfiles
      dsimp only at hfiles
      rw [FileTree.afterRead, hfile.dropJournal, ite_self] at hfiles
      rw [← hfiles]
      split
      · exact .attach hfile.toGuarded true _
      · exact .refl t
  rw [hturn]
  exact ⟨others, _, rfl, hafter, hdatabase, hdirectories.trans hstays⟩

/-- A session that has its file to itself leaves its database to rest when it is over. -/
theorem restsAt_detach :
    FileTree.RestsAt first place (· = db) (l.files.detach l.session) := by
  obtain ⟨readers, f, hsession, hundisturbed, hdatabase, hdirectories⟩ := h
  rw [hsession]
  exact hundisturbed.restsAt_detach hdatabase hdirectories true readers

end KeepsAt

/-- A session that starts on a file that rests has it to itself. -/
theorem keepsAt_attach {t : FileTree} {db : Database} (hblank : db ≠ .blank)
    (h : FileTree.RestsAt first place (· = db) t) (readers : List Bool) :
    KeepsAt first place ⟨t.attach (.ledger (.file place) true readers),
      .ledger (.file place) true readers⟩ db := by
  obtain ⟨hdirectories, f, hguarded, hrests⟩ := h
  obtain ⟨attached, hattached⟩ := attach_undisturbed true readers
    (hguarded.undisturbed hrests.attached_false) (hrests.database ▸ hblank)
  exact ⟨readers, _, rfl, hattached, hrests.database,
    hdirectories.trans (.attach hguarded true readers)⟩

/-- A session on a file that holds a ledger holds it. -/
theorem HoldsAt.holds {l : OpenLedger} {m : Memory} (h : HoldsAt first place l m) : l.Holds m := by
  obtain ⟨readers, f, hsession, hundisturbed, hdatabase, -⟩ := h
  exact ⟨place, readers, f, hsession, hundisturbed, hdatabase⟩

/-- A session that has its file to itself serves without taking directories away. -/
theorem serves_holdsAt (first : FileTree) (place : Place) : Serves (HoldsAt first place) where
  readable h operation := serves.readable h.holds operation
  isReady h operation := serves.isReady h.holds operation
  writable h operation := serves.writable h.holds operation
  keep h next := KeepsAt.keep h (database_ne_blank next)
  turn h := KeepsAt.turn h (database_ne_blank _)

/-- A session that has its file to itself leaves the ledger to rest when it is over. -/
theorem HoldsAt.restsAt_detach {l : OpenLedger} {m : Memory} (h : HoldsAt first place l m) :
    FileTree.RestsAt first place (· = m.database) (l.files.detach l.session) :=
  KeepsAt.restsAt_detach h

/-- A session that starts on a ledger that rests has it to itself. -/
theorem holdsAt_attach {t : FileTree} {m : Memory}
    (h : FileTree.RestsAt first place (· = m.database) t) (readers : List Bool) :
    HoldsAt first place ⟨t.attach (.ledger (.file place) true readers),
      .ledger (.file place) true readers⟩ m :=
  keepsAt_attach (database_ne_blank m) h readers

namespace OpenedAt

variable {t : FileTree} {s : StoreSettings} {l : OpenLedger} (h : OpenedAt t s place l)

include h

/-- The path that a store is opened by leads to its file. -/
theorem exists_address : (FileTree.makeParent s.path t).answer = .ok () ∧
    ∃ a, Files.Address.ofPath? s.path = some a ∧ FileTree.LeadsTo a place ∧ a.mayWrite = true := by
  obtain ⟨readers, hsession⟩ := h.session
  obtain ⟨hmade, a, haddress, hopened, -⟩ := FileTree.openAddress_of_openStore h.answer
  rw [hsession] at hopened
  obtain ⟨hsite, hfile, -⟩ := FileTree.openFile_of_openAddress hopened
  exact ⟨hmade, a, haddress, hsite, (FileTree.session_openFile hfile).2.symm⟩

/-- The ledger that was not there before rests until its session starts. -/
theorem restsAt : FileTree.RestsAt (FileTree.makeParent s.path t).state place
    (· = Memory.empty.database) l.files := by
  obtain ⟨readers, hsession⟩ := h.session
  obtain ⟨-, a, -, hopened, hstate⟩ := FileTree.openAddress_of_openStore h.answer
  rw [hsession] at hopened
  obtain ⟨-, hfile, hsame⟩ := FileTree.openFile_of_openAddress hopened
  have hmutable := FileTree.isImmutable_of_mayWrite (FileTree.session_openFile hfile).2.symm
  have hfiles : (FileTree.openFile place a s (FileTree.makeParent s.path t).state).state = l.files :=
    hsame.symm.trans (hstate.symm.trans h.files)
  have hrests := FileTree.RestsAt.of_openFile (D := fun _ => True) (fun _ _ => trivial) hmutable
    (.refl _) h.clear (fun f hfound => ?_) hfile
  · rw [hfiles] at hrests
    obtain ⟨hdirectories, f, hguarded, hf⟩ := hrests
    obtain ⟨other, _, held, hother, hheld, hdatabase⟩ := h.holds
    rw [hsession] at hother
    injection hother with hhome
    obtain rfl := Home.file.inj hhome
    obtain rfl : held = f := by rw [← hheld.ledgerAt, hguarded.ledgerAt]
    exact ⟨hdirectories, held, hguarded, hf.lock_none, hf.settled_some, hf.attached_false, hdatabase⟩
  · rw [FileTree.findLedger, h.free] at hfound
    dsimp only at hfound
    split at hfound
    · obtain rfl := Except.ok.inj hfound
      exact ⟨rfl, rfl, rfl, trivial⟩
    · cases hfound

/-- Where the ledger rests it can be opened again by the same path, and goes on to rest until a
session starts. -/
theorem reopen {settings : StoreSettings} (hpath : settings.path = s.path) {u : FileTree}
    {m : Memory}
    (hu : FileTree.RestsAt (FileTree.makeParent s.path t).state place (· = m.database) u) :
    FileTree.RestsAt (FileTree.makeParent s.path t).state place (· = m.database)
        (FileTree.openStore settings u).state ∧
      ∀ session, (FileTree.openStore settings u).answer = .ok session →
        session = .ledger (.file place) true (FileTree.freshReaders settings) := by
  obtain ⟨hmade, a, haddress, hsite, hwrite⟩ := h.exists_address
  have hmutable := FileTree.isImmutable_of_mayWrite hwrite
  rw [← hpath] at hu hmade haddress ⊢
  refine ⟨FileTree.RestsAt.keeps_openStore m.keptByPrepare_database hsite hmutable haddress hmade
    u hu, fun session hanswer => ?_⟩
  obtain ⟨-, other, hother, hopened, -⟩ := FileTree.openAddress_of_openStore hanswer
  obtain rfl : a = other := Option.some.inj (haddress.symm.trans hother)
  exact FileTree.session_of_openAddress hwrite hsite hopened

end OpenedAt

end OpenLedger

end JobLedger
