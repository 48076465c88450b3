import JobLedger.Proofs.Files.Restarting

/-!
# Tables that stay what they are

Opening a store may make directories, claim a file, take a journal away, change how the journal is
kept and complete the schema. A reader may take a log into use, and the end of a session puts that
back into the file. None of this touches a row, in whatever state the file and its tables are; only
what is in the place of a file beside the database may go.
-/

namespace JobLedger

open JobLedger.Action

namespace LedgerFile

/-- Settling a ledger leaves its database. -/
@[simp] theorem database_settle (f : LedgerFile) : f.settle.database = f.database := by
  rw [settle]
  split <;> rfl

/-- Changing how the journal is kept leaves the database. -/
theorem database_setJournal (mayWrite : Bool) (mode : JournalMode) (f : LedgerFile) :
    (setJournal mayWrite mode f).state.database = f.database := by
  have hkeeps : Keeps (fun g => g.database = f.database) (setJournal mayWrite mode) := by
    refine Keeps.change fun g _ next hnext hg => ?_
    split at hnext
    · exact nomatch hnext
    · split at hnext
      · rw [← (Prod.mk.inj (Except.ok.inj hnext)).2, database_settle, hg]
      · split at hnext
        · exact nomatch hnext
        · split at hnext
          · exact nomatch hnext
          · rw [← (Prod.mk.inj (Except.ok.inj hnext)).2]
            exact (database_settle g).trans hg
  exact hkeeps f rfl

end LedgerFile

/-- A place is not that of a file beside the ledger at home. -/
def Home.IsApart (home : Home) (place : Place) : Prop :=
  ∀ other, home = .file other → ∀ side : SideFile, place ≠ side.of other

/-- A place is not that of a file beside the ledger of a session. -/
def Session.IsApart (session : Session) (place : Place) : Prop :=
  ∀ home mayWrite readers, session = .ledger home mayWrite readers → home.IsApart place

/-- A place is not that of a file beside the database that settings name. -/
def StoreSettings.IsApart (s : StoreSettings) (place : Place) : Prop :=
  ∀ a other, Files.Address.ofPath? s.path = some a → FileTree.LeadsTo a other →
    (Home.file other).IsApart place

/-- The place of a database is not that of a file beside it. -/
theorem Home.isApart_self (place : Place) : (Home.file place).IsApart place := by
  rintro other hother side
  obtain rfl := Home.file.inj hother
  exact (SideFile.of_ne side place).symm

/-- The database that settings name is not beside itself. -/
theorem StoreSettings.isApart_of_leadsTo {s : StoreSettings} {a : Files.Address} {place : Place}
    (ha : Files.Address.ofPath? s.path = some a) (hplace : FileTree.LeadsTo a place) :
    s.IsApart place := by
  obtain ⟨name, hsite, rfl⟩ := hplace
  rintro b other hb ⟨name', hsite', rfl⟩
  obtain rfl : a = b := Option.some.inj (ha.symm.trans hb)
  obtain rfl : name = name' := by
    rw [hsite] at hsite'
    exact Files.Site.file.inj hsite'
  exact Home.isApart_self _

namespace FileTree

variable {first t : FileTree} {place other : Place} {home : Home}

/-- The ledger at a place depends on what is at that place only. -/
theorem ledgerAt_of_find? {u : FileTree} (h : u.find? place = t.find? place) :
    u.ledgerAt (.file place) = t.ledgerAt (.file place) := by
  simp only [ledgerAt, h]

/-- A file beside a ledger is put at no other place. -/
theorem find?_putSide_of_ne {side : SideFile} (hne : place ≠ side.of other)
    (content : Text.Octets) : (t.putSide other side content).find? place = t.find? place := by
  rw [putSide]
  split
  · rfl
  · rw [find?_put, if_neg hne]

/-- A file beside a ledger is erased at no other place. -/
theorem find?_eraseSide_of_ne {side : SideFile} (hne : place ≠ side.of other) :
    (t.eraseSide other side).find? place = t.find? place := by
  rw [eraseSide]
  split
  · rfl
  · rw [find?_erase, if_neg hne]

/-- A journal is dropped at no other place. -/
theorem find?_dropJournal_of_ne (hne : place ≠ SideFile.journal.of other) :
    (t.dropJournal other).find? place = t.find? place := by
  rw [dropJournal]
  split
  · rw [find?_erase, if_neg hne]
  · rfl

/-! ## Changes of the tree -/

/-- The ledger at a place has the tables that it had at first. -/
def KeepsTables (first : FileTree) (place : Place) (t : FileTree) : Prop :=
  (first.ledgerAt (.file place)).database.SameTables (t.ledgerAt (.file place)).database

namespace KeepsTables

/-- What has not changed has its tables. -/
theorem refl (t : FileTree) (place : Place) : KeepsTables t place t := Database.SameTables.refl _

variable (h : KeepsTables first place t)

include h

/-- The tables at a place stay as long as what is at that place stays. -/
theorem of_find? {u : FileTree} (hfind : u.find? place = t.find? place) :
    KeepsTables first place u := by
  rw [KeepsTables, ledgerAt_of_find? hfind]
  exact h

/-- A ledger is put where it may be, with the tables that it had. -/
theorem putLedger {f : LedgerFile} (hf : (t.ledgerAt home).database.SameTables f.database) :
    KeepsTables first place (t.putLedger home f) := by
  rw [KeepsTables, ledgerAt_putLedger]
  split
  · next hhome =>
    subst hhome
    exact Database.SameTables.trans h hf
  · exact h

/-- A ledger is put at a place with the tables that it had. -/
theorem put {f : LedgerFile} (hf : (t.ledgerAt (.file other)).database.SameTables f.database) :
    KeepsTables first place (t.put other (.ledger f)) := h.putLedger hf

variable (hhome : home.IsApart place)

include hhome

/-- A ledger is changed where it is, and keeps its tables. -/
theorem changeLedger {f : LedgerFile} (hf : (t.ledgerAt home).database.SameTables f.database) :
    KeepsTables first place (t.changeLedger home f) := by
  have hput := h.putLedger hf
  cases home with
  | memory name => exact hput
  | file other =>
    rw [FileTree.changeLedger]
    split
    · exact hput
    · exact hput.of_find? (find?_eraseSide_of_ne (hhome other rfl .journal))

/-- A first reader moves files, and no rows. -/
theorem afterRead : KeepsTables first place (t.afterRead home) := by
  cases home with
  | memory name => exact h
  | file other => exact h.of_find? (find?_dropJournal_of_ne (hhome other rfl .journal))

/-- A session that joins a ledger changes no rows. -/
theorem attach (mayWrite : Bool) (readers : List Bool) :
    KeepsTables first place (t.attach (.ledger home mayWrite readers)) := by
  cases home with
  | memory name => exact h.putLedger (.refl _)
  | file other =>
    have hside (side : SideFile) (content : Text.Octets) {u : FileTree}
        (hu : KeepsTables first place u) :
        KeepsTables first place (u.putSide other side content) :=
      hu.of_find? (find?_putSide_of_ne (hhome other rfl side) content)
    rw [FileTree.attach]
    split
    · rw [keepLog]
      dsimp only
      split
      · split
        · exact hside .log _ h
        · exact h
      · refine hside .index _ (hside .log _ ?_)
        exact h.put (.refl _)
    · exact h

/-- The end of a session puts into the file what is in the log, unless that was written over. -/
theorem detach (hkept : ∀ other, home = .file other → t.isTorn (.file other) = false)
    (mayWrite : Bool) (readers : List Bool) :
    KeepsTables first place (t.detach (.ledger home mayWrite readers)) := by
  cases home with
  | memory name =>
    rw [FileTree.detach]
    split
    · exact h.putLedger (.refl _)
    · exact h.of_find? rfl
  | file other =>
    rw [FileTree.detach]
    split
    · rw [closeLog, hkept other rfl, if_neg Bool.false_ne_true]
      have hput : KeepsTables first place
          (t.put other (.ledger { t.ledgerAt (.file other) with attached := false }.settle)) := by
        refine h.put ?_
        rw [LedgerFile.database_settle]
        exact .refl _
      have hlog := hput.of_find? (find?_eraseSide_of_ne (hhome other rfl .log))
      exact hlog.of_find? (find?_eraseSide_of_ne (hhome other rfl .index))
    · exact h

end KeepsTables

/-! ## Openings -/

/-- A directory is made only where there is nothing. -/
theorem keepsTables_makeAlong {here : Place} {names : List String}
    (h : KeepsTables first place t) : KeepsTables first place (t.makeAlong here names).2 := by
  fun_induction makeAlong t here names with
  | case1 | case4 | case6 => exact h
  | case2 t here name rest hidle ih => exact ih h
  | case3 t here rest hidle ih => exact ih h
  | case5 t here name rest hidle hup hshort hthere ih => exact ih h
  | case7 t here name rest hidle hup hshort hnone ih =>
    refine ih ?_
    by_cases hplace : place = here ++ [name]
    · have hblank : (t.put (here ++ [name]) .directory).ledgerAt (.file place) =
          t.ledgerAt (.file place) := by
        simp only [ledgerAt, find?_put, hplace, hnone]
        rfl
      rw [KeepsTables, hblank]
      exact h
    · exact h.of_find? (by rw [find?_put, if_neg hplace])

/-- A directory is made where there was nothing. -/
theorem keepsTables_makeParent (path : String) :
    Keeps (KeepsTables first place) (makeParent path) := by
  intro t h
  rcases makeParent_cases path with hnone | ⟨parent, hparent⟩
  · rw [hnone]
    exact h
  · rw [hparent]
    change KeepsTables first place (t.makeDirectory parent).2
    rw [makeDirectory]
    split
    · exact h
    · split
      · exact h
      · exact keepsTables_makeAlong h

/-- What is claimed at a place is the ledger there. -/
theorem ledgerAt_of_findLedger {mode : Files.OpenMode} {f : LedgerFile}
    (h : t.findLedger mode place = .ok f) : t.ledgerAt (.file place) = f := by
  rw [findLedger] at h
  rw [ledgerAt]
  split at h
  · next hentry =>
    rw [hentry]
    exact Except.ok.inj h
  · next content hentry =>
    rw [hentry]
    dsimp only
    rw [h]
    rfl
  · cases h
  · next hentry =>
    rw [hentry]
    split at h
    · exact Except.ok.inj h
    · cases h

/-- A file is made for a database where there was none. -/
theorem keepsTables_claim (mode : Files.OpenMode) :
    Keeps (KeepsTables first place) (claim mode other) := by
  refine Keeps.change fun t _ next hnext h => ?_
  obtain ⟨f, hfound, hput⟩ := bind_eq_ok_iff.mp hnext
  rw [← (Prod.mk.inj (Except.ok.inj hput)).2]
  refine h.put ?_
  rw [ledgerAt_of_findLedger hfound]
  exact .refl _

section Apart

variable (hhome : home.IsApart place)

include hhome

/-- An action on a ledger that keeps the tables of all ledgers keeps those at a place. -/
theorem keepsTables_onLedger {ε α : Type} {x : Action ε LedgerFile α}
    (hx : ∀ f : LedgerFile, f.database.SameTables (x f).state.database) :
    Keeps (KeepsTables first place) (onLedger home x) :=
  fun _ h => h.changeLedger hhome (hx _)

/-- Opening a ledger where it may be prepares its schema, and keeps its rows. -/
theorem keepsTables_openHome (a : Files.Address) (s : StoreSettings) :
    Keeps (KeepsTables first place) (openHome home a s) :=
  (Keeps.look _).bind fun may =>
    (keepsTables_onLedger hhome (LedgerFile.sameTables_prepareSchema may)).bind fun _ =>
      Keeps.answer _

end Apart

section File

variable (hplace : (Home.file other).IsApart place)

include hplace

/-- Entering a ledger may set its journal, and keeps its rows. -/
theorem keepsTables_enter (mayWrite : Bool) (mode : JournalMode) :
    Keeps (KeepsTables first place) (enter other mayWrite mode) := by
  refine (Keeps.look _).bind fun _ => Keeps.change fun t _ next hnext h => ?_
  rw [← (Prod.mk.inj (Except.ok.inj hnext)).2]
  exact h.afterRead hplace

/-- Setting up a journal keeps all rows. -/
theorem keepsTables_setUpJournal (mayWrite : Bool) (mode : JournalMode) :
    Keeps (KeepsTables first place) (setUpJournal other mayWrite mode) := by
  refine (keepsTables_enter hplace mayWrite mode).bind fun _ => (Keeps.look _).bind fun may => ?_
  refine keepsTables_onLedger hplace fun f => ?_
  rw [LedgerFile.database_setJournal]
  exact .refl _

/-- Leaving a journal keeps all rows. -/
theorem keepsTables_leaveJournal (mayWrite : Bool) (mode : JournalMode) :
    Keeps (KeepsTables first place) (leaveJournal other mayWrite mode) :=
  (Keeps.look _).bind fun _ => (keepsTables_enter hplace mayWrite .delete).bind fun _ =>
    Keeps.reportAll _

/-- Opening a file keeps the rows in it and in every other file. -/
theorem keepsTables_openFile (a : Files.Address) (s : StoreSettings) :
    Keeps (KeepsTables first place) (openFile other a s) := by
  refine (keepsTables_claim a.mode).bind fun _ => ?_
  split
  · exact (Keeps.reportAll _).bind fun _ => (Keeps.look _).bind fun _ =>
      (Keeps.ofExcept _).bind fun _ => Keeps.answer _
  · split
    · exact (keepsTables_leaveJournal hplace _ _).bind fun _ => keepsTables_openHome hplace a s
    · exact (keepsTables_setUpJournal hplace _ _).bind fun _ => keepsTables_openHome hplace a s

end File

/-- Opening a database of its own touches no file. -/
theorem keepsTables_openOwn (a : Files.Address) (events : List Event) :
    Keeps (KeepsTables first place) (openOwn a events) :=
  (Keeps.reportAll _).bind fun _ => (Keeps.ofExcept _).bind fun _ => (Keeps.reportAll _).bind fun _ =>
    Keeps.answer _

/-- Opening the file that an address leads to keeps the rows at every place apart from its side
files. -/
theorem keepsTables_openAddress {a : Files.Address}
    (ha : ∀ other, LeadsTo a other → (Home.file other).IsApart place) (s : StoreSettings) :
    Keeps (KeepsTables first place) (openAddress a s) := by
  rw [openAddress]
  cases hsite : a.site with
  | memory | scratch => exact keepsTables_openOwn a _
  | sharedMemory name =>
    have hname : (Home.memory name).IsApart place := fun _ h => by cases h
    exact (Keeps.reportAll _).bind fun _ => keepsTables_openHome hname a s
  | file name =>
    refine (Keeps.look _).bind fun _ => (Keeps.look _).bind_of (A := (· = placeOf name))
      (fun t other _ hfound => ?_) fun other hother => ?_
    · exact (placeOf_of_databasePlace? (eq_some_of_elim hfound)).symm
    · subst hother
      exact (keepsTables_openFile (ha _ ⟨name, hsite, rfl⟩) a s).bind fun _ => Keeps.look _

/-- Opening a store leaves the rows of all tables, whether it succeeds or not. -/
theorem keepsTables_openStore {s : StoreSettings} (hs : s.IsApart place) :
    Keeps (KeepsTables first place) (openStore s) := by
  refine (Keeps.look _).bind fun _ => (keepsTables_makeParent s.path).bind fun _ =>
    (Keeps.ofOption _ _).bind_of (A := fun a => Files.Address.ofPath? s.path = some a)
      (fun t a _ hfound => ?_) fun a ha => ?_
  · rw [ofOption_apply] at hfound
    exact eq_some_of_elim hfound
  · exact (keepsTables_openAddress (fun other => hs a other ha) s).bind fun _ =>
      (Keeps.report _).bind fun _ => Keeps.answer _

end FileTree

end JobLedger
