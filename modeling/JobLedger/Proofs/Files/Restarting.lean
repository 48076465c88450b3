import JobLedger.Proofs.Durable.Alike
import JobLedger.Proofs.Files.Reopening

/-!
# Files that stores are opened on again and again

A store that is opened for writing on a file that nobody else uses has that to itself, whatever is in
its tables. The schema is complete then, so that opening the store again finds the same database.
Where a file rests with a complete schema, settings that name it by a path do open a store on it.
-/

namespace JobLedger

open JobLedger.Action

/-- Preparing a complete schema changes nothing. -/
theorem Database.IsComplete.keptByPrepare {db : Database} (h : db.IsComplete) :
    Database.KeptByPrepare (· = db) := by
  rintro obstacle _ next created rfl hprepare
  rw [h.prepare] at hprepare
  exact (Prod.mk.inj (Except.ok.inj hprepare)).2.symm

/-- A schema that was completed is complete. -/
theorem LedgerFile.Rests.of_prepareSchema {D : Database → Prop} {f : LedgerFile} (h : f.Rests D)
    {mayWrite : Bool} {u : Unit} (hanswer : (prepareSchema mayWrite f).answer = .ok u) :
    (prepareSchema mayWrite f).state.Rests Database.IsComplete := by
  have hrests := keeps_prepareSchema (D := fun _ => True) (fun _ _ => trivial) mayWrite f
    ⟨h.lock_none, h.settled_some, h.attached_false, trivial⟩
  exact ⟨hrests.lock_none, hrests.settled_some, hrests.attached_false,
    isComplete_prepareSchema hanswer⟩

/-- The journal of a file that nobody uses may be set up in any mode. -/
theorem LedgerFile.answer_setJournal {f : LedgerFile} (hlock : f.lock = none)
    (hidle : f.attached = false) (mode : JournalMode) :
    (setJournal true mode f).answer = .ok () := by
  have hshut : f.isShut = false := by simp [isShut, hlock]
  by_cases hmode : f.journal = mode
  · simp [setJournal, change, hshut, hmode]
  · simp [setJournal, change, hshut, hmode, hlock, hidle]

namespace FileTree

/-- A store can be opened for writing, under settings, on the file at a place. Nobody uses that, and
nothing is left beside it. -/
structure OpensAt (t : FileTree) (s : StoreSettings) (place : Place) : Prop where
  answer : ∃ readers, (openStore s t).answer = .ok (.ledger (.file place) true readers)
  clear : (makeParent s.path t).state.IsClear place
  idle : ∀ f, (makeParent s.path t).state.find? place = some (.ledger f) →
    f.lock = none ∧ f.settled.isSome ∧ f.attached = false

variable {first t : FileTree} {place : Place} {s : StoreSettings} {db : Database}

namespace RestsAt

variable {D : Database → Prop}

/-- A file rests with a complete schema once its ledger is opened. -/
theorem of_openHome (h : RestsAt first place D t) {a : Files.Address} {session : Session}
    (hanswer : (openHome (.file place) a s t).answer = .ok session) :
    RestsAt first place Database.IsComplete (openHome (.file place) a s t).state := by
  obtain ⟨hdirectories, f, hguarded, hrests⟩ := h
  rw [openHome] at hanswer ⊢
  obtain ⟨may, -, hanswer, hstate⟩ := bind_eq_ok hanswer
  rw [hstate]
  obtain ⟨u, hprepared, -, hstate⟩ := bind_eq_ok hanswer
  rw [hstate]
  change (LedgerFile.prepareSchema may (t.ledgerAt (.file place))).answer = .ok u at hprepared
  change RestsAt first place Database.IsComplete (t.changeLedger (.file place)
    (LedgerFile.prepareSchema may (t.ledgerAt (.file place))).state)
  rw [hguarded.ledgerAt] at hprepared ⊢
  have hnext := hrests.of_prepareSchema hprepared
  exact ⟨hdirectories.trans (.changeLedger hguarded _), _,
    hguarded.changeLedger _ hnext.lock_none hnext.settled_some, hnext⟩

/-- A file rests with a complete schema once it is opened where nothing was in the way. -/
theorem isComplete_of_openFile {a : Files.Address} {session : Session}
    (hmutable : a.isImmutable = false) (hdirectories : first.KeepsDirectories t)
    (hclear : t.IsClear place) (hrests : ∀ f, t.findLedger a.mode place = .ok f → f.Rests D)
    (hanswer : (openFile place a s t).answer = .ok session) :
    RestsAt first place Database.IsComplete (openFile place a s t).state := by
  rw [openFile_eq hmutable] at hanswer ⊢
  obtain ⟨_, hclaim, hanswer, hstate⟩ := bind_eq_ok hanswer
  rw [hstate]
  have hclaimed := of_claim hdirectories hclear hrests hclaim
  split at hanswer
  · next hunshared =>
    rw [if_pos hunshared]
    obtain ⟨_, -, hanswer, hstate⟩ := bind_eq_ok hanswer
    rw [hstate]
    exact (keeps_leaveJournal _ _ _ hclaimed).of_openHome hanswer
  · next hshared =>
    rw [if_neg hshared]
    obtain ⟨_, -, hanswer, hstate⟩ := bind_eq_ok hanswer
    rw [hstate]
    exact (keeps_setUpJournal _ _ _ hclaimed).of_openHome hanswer

end RestsAt

/-! ## Places of databases -/

/-- A database may be at a place: its name and that of its journal are short enough, and there is a
directory for it. -/
structure MayHold (t : FileTree) (place : Place) : Prop where
  spelling : spelledSize place + journalSuffixSize ≤ spellingLimit
  directory : t.isDirectoryAt place.dropLast = true

/-- A place may hold a database as long as the directories on the way to it stay. -/
theorem MayHold.of_keepsDirectories {u : FileTree} (h : t.MayHold place)
    (hkeeps : t.KeepsDirectories u) : u.MayHold place :=
  ⟨h.spelling, hkeeps _ h.directory⟩

/-- A path that leads to a database leads to a place that may hold one. -/
theorem mayHold_of_databasePlace? {name : String} (h : t.databasePlace? name = some place) :
    t.MayHold place := by
  rw [databasePlace?] at h
  split at h
  · cases h
  · next hfree =>
    obtain rfl := Option.some.inj h
    simp only [not_or, Nat.not_lt, Bool.not_eq_true', Bool.not_eq_false] at hfree
    exact ⟨hfree.1, hfree.2.1⟩

/-- A ledger that was opened at a place is at one that may hold it. -/
theorem mayHold_of_openAddress {a : Files.Address} {session : Session} (hsite : LeadsTo a place)
    (hanswer : (openAddress a s t).answer = .ok session) : t.MayHold place := by
  obtain ⟨name, hsite, hplace⟩ := hsite
  rw [openAddress, hsite] at hanswer
  obtain ⟨_, -, hanswer, -⟩ := bind_eq_ok hanswer
  obtain ⟨other, hother, -, -⟩ := bind_eq_ok hanswer
  have hfound : t.databasePlace? name = some other := eq_some_of_elim hother
  obtain rfl : place = other := hplace.symm.trans (placeOf_of_databasePlace? hfound)
  exact mayHold_of_databasePlace? hfound

/-- Making directories leaves everything else. -/
theorem find?_makeAlong {here : Place} {names : List String} {entry : FileEntry}
    (h : t.find? place = some entry) : (t.makeAlong here names).2.find? place = some entry := by
  fun_induction makeAlong t here names with
  | case1 | case4 | case6 => exact h
  | case2 t here name rest hidle ih => exact ih h
  | case3 t here rest hidle ih => exact ih h
  | case5 t here name rest hidle hup hshort hthere ih => exact ih h
  | case7 t here name rest hidle hup hshort hnone ih =>
    refine ih ?_
    rw [find?_put, if_neg]
    · exact h
    · rintro rfl
      rw [hnone] at h
      cases h

/-- Making a directory leaves what is there. -/
theorem find?_makeParent {entry : FileEntry} (path : String) (h : t.find? place = some entry) :
    (makeParent path t).state.find? place = some entry := by
  rcases makeParent_cases path with hnone | ⟨parent, hparent⟩
  · rw [hnone]
    exact h
  · rw [hparent]
    change (t.makeDirectory parent).2.find? place = some entry
    rw [makeDirectory]
    split
    · exact h
    · split
      · exact h
      · exact find?_makeAlong h

/-- Making a directory leaves the directories that are there. -/
theorem keepsDirectories_makeParent (t : FileTree) (path : String) :
    t.KeepsDirectories (makeParent path t).state := by
  rcases makeParent_cases path with hnone | ⟨parent, hparent⟩
  · rw [hnone]
    exact .refl t
  · rw [hparent]
    change t.KeepsDirectories (t.makeDirectory parent).2
    rw [makeDirectory]
    split
    · exact .refl t
    · split
      · exact .refl t
      · exact keepsDirectories_makeAlong _ _ _

namespace OpensAt

variable (h : t.OpensAt s place)

include h

/-- The file at the place is opened once the directories on the way are made. -/
theorem exists_openFile : ∃ a readers, a.mayWrite = true ∧
    (openFile place a s (makeParent s.path t).state).answer =
      .ok (.ledger (.file place) true readers) ∧
    (openStore s t).state = (openFile place a s (makeParent s.path t).state).state := by
  obtain ⟨readers, hanswer⟩ := h.answer
  obtain ⟨-, a, -, hopened, hstate⟩ := openAddress_of_openStore hanswer
  obtain ⟨-, hfile, hsame⟩ := openFile_of_openAddress hopened
  exact ⟨a, readers, (session_openFile hfile).2.symm, hfile, hstate.trans hsame⟩

/-- What is claimed at the place is idle. -/
theorem rests_of_findLedger {mode : Files.OpenMode} {f : LedgerFile}
    (hfound : (makeParent s.path t).state.findLedger mode place = .ok f) :
    f.Rests fun _ => True := by
  rw [findLedger] at hfound
  split at hfound
  · next other hentry =>
    obtain rfl := Except.ok.inj hfound
    obtain ⟨hlock, hsettled, hattached⟩ := h.idle other hentry
    exact ⟨hlock, hsettled, hattached, trivial⟩
  · rw [ledgerIn] at hfound
    split at hfound
    · obtain rfl := Except.ok.inj hfound
      exact ⟨rfl, rfl, rfl, trivial⟩
    · split at hfound
      · cases hfound
      · split at hfound
        · obtain rfl := Except.ok.inj hfound
          exact ⟨rfl, rfl, rfl, trivial⟩
        · cases hfound
  · cases hfound
  · split at hfound
    · obtain rfl := Except.ok.inj hfound
      exact ⟨rfl, rfl, rfl, trivial⟩
    · cases hfound

/-- The file that was opened rests, with a complete schema, until a session starts. -/
theorem exists_restsAt : ∃ db : Database, db.IsComplete ∧
    RestsAt (makeParent s.path t).state place (· = db) (openStore s t).state := by
  obtain ⟨a, readers, hwrite, hfile, hstate⟩ := h.exists_openFile
  obtain ⟨hdirectories, f, hguarded, hrests⟩ := RestsAt.isComplete_of_openFile
    (isImmutable_of_mayWrite hwrite) (.refl _) h.clear (fun _ => h.rests_of_findLedger) hfile
  rw [hstate]
  exact ⟨f.database, hrests.database, hdirectories, f, hguarded, hrests.lock_none,
    hrests.settled_some, hrests.attached_false, rfl⟩

/-- The file may hold a database where it was opened. -/
theorem mayHold : (makeParent s.path t).state.MayHold place := by
  obtain ⟨readers, hanswer⟩ := h.answer
  obtain ⟨-, a, -, hopened, -⟩ := openAddress_of_openStore hanswer
  exact mayHold_of_openAddress (openFile_of_openAddress hopened).1 hopened

/-- A file that rests with a complete schema rests on when it is opened again. -/
theorem keeps_restsAt (hcomplete : db.IsComplete) (hrests : RestsAt first place (· = db) t) :
    RestsAt first place (· = db) (openStore s t).state := by
  obtain ⟨a, readers, hwrite, -, hstate⟩ := h.exists_openFile
  obtain ⟨hdirectories, f, hguarded, hf⟩ := hrests
  rw [hstate]
  refine RestsAt.keeps_openFile hcomplete.keptByPrepare (isImmutable_of_mayWrite hwrite) s _
    ⟨hdirectories.trans (keepsDirectories_makeParent t s.path), f, ?_, hf⟩
  exact {
    toIsClear := h.clear
    entry := find?_makeParent s.path hguarded.entry
    lock_none := hf.lock_none
    settled_some := hf.settled_some }

end OpensAt

/-! ## Settings that name a file -/

/-- A walk along names ends where it did as long as the directories stay. -/
theorem walk_of_keepsDirectories {u : FileTree} (h : t.KeepsDirectories u) {here : Place}
    {names : List String} (hwalk : t.walk here names = some place) :
    u.walk here names = some place := by
  fun_induction walk t here names with
  | case1 => exact hwalk
  | case2 | case5 => exact nomatch hwalk
  | case3 here name rest hthere hidle ih =>
    rw [walk, h here (by simpa using hthere), if_neg nofun, if_pos hidle]
    exact ih hwalk
  | case4 here rest hthere hidle ih =>
    rw [walk, h here (by simpa using hthere), if_neg nofun, if_neg hidle, if_pos rfl]
    exact ih hwalk
  | case6 here name rest hthere hidle hup hshort ih =>
    rw [walk, h here (by simpa using hthere), if_neg nofun, if_neg hidle, if_neg hup,
      if_neg hshort]
    exact ih hwalk

/-- Names that lead to a place spell it. -/
theorem foldl_of_walk {here : Place} {names : List String} (hwalk : t.walk here names = some place) :
    names.foldl (fun here name =>
      if Files.isIdle name then here
      else if name = ".." then here.dropLast else here ++ [name]) here = place := by
  fun_induction walk t here names with
  | case1 => exact Option.some.inj hwalk
  | case2 | case5 => exact nomatch hwalk
  | case3 here name rest hthere hidle ih =>
    rw [List.foldl_cons, if_pos hidle]
    exact ih hwalk
  | case4 here rest hthere hidle ih =>
    rw [List.foldl_cons, if_neg hidle, if_pos rfl]
    exact ih hwalk
  | case6 here name rest hthere hidle hup hshort ih =>
    rw [List.foldl_cons, if_neg hidle, if_neg hup]
    exact ih hwalk

/-- Names that lead to a place can be followed. -/
theorem canFollow_of_walk {here : Place} {names : List String}
    (hwalk : t.walk here names = some place) : t.canFollow here names = true := by
  fun_induction walk t here names with
  | case1 => rfl
  | case2 | case5 => exact nomatch hwalk
  | case3 here name rest hthere hidle ih =>
    rw [canFollow, if_pos hidle]
    exact ih hwalk
  | case4 here rest hthere hidle ih =>
    rw [canFollow, if_neg hidle, if_pos rfl]
    exact ih hwalk
  | case6 here name rest hthere hidle hup hshort ih =>
    have hdirectory : t.find? here = some .directory := by simpa [isDirectoryAt] using hthere
    rw [canFollow, if_neg hidle, if_neg hup, if_neg hshort, hdirectory]
    exact ih hwalk

/-- Settings name the file at a place by a path to it, on which all directories are there, and they
ask for no more readers than there may be. -/
structure IsNamed (t : FileTree) (s : StoreSettings) (place : Place) : Prop where
  poolSize_ne : s.poolSize ≠ 0
  poolSize_le : s.poolSize.toNat ≤ poolLimit
  scheme_none : Files.scheme.isPrefixOf s.path.toList = false
  filed : s.path ≠ Files.memoryName
  made : makeParent s.path t = ⟨.ok (), t, []⟩
  resolve : t.resolve? s.path = some place

/-- A path leads where it did as long as the directories stay. -/
theorem resolve?_of_keepsDirectories {u : FileTree} (h : t.KeepsDirectories u) {path : String}
    (hresolve : t.resolve? path = some place) : u.resolve? path = some place := by
  rw [resolve?] at hresolve ⊢
  split at hresolve
  · exact nomatch hresolve
  · next husable =>
    rw [if_neg husable]
    exact walk_of_keepsDirectories h hresolve

/-- A path that leads to a place which may hold a database leads to that database. -/
theorem databasePlace?_of_resolve? {path : String} (hresolve : t.resolve? path = some place)
    (hhold : t.MayHold place) : t.databasePlace? path = some place := by
  rw [resolve?] at hresolve
  split at hresolve
  · exact nomatch hresolve
  · have hplace : placeOf path = place := foldl_of_walk hresolve
    rw [databasePlace?, hplace]
    refine if_neg ?_
    rw [hhold.directory, canFollow_of_walk hresolve]
    have hspelling := hhold.spelling
    simpa using hspelling

namespace IsNamed

variable (h : t.IsNamed s place)

include h

/-- A path that names a file can be used. -/
theorem usable : Files.isUnusable s.path = false := by
  have hresolve := h.resolve
  rw [resolve?] at hresolve
  split at hresolve
  · exact nomatch hresolve
  · next husable => exact eq_false_of_ne_true husable

/-- A path that names a file is not empty. -/
theorem path_ne : s.path ≠ "" := by
  intro hempty
  have husable := h.usable
  rw [hempty] at husable
  exact nomatch husable

/-- A path that names a file is read as the plain name of that file. -/
theorem ofPath? : Files.Address.ofPath? s.path = some { name := s.path } := by
  have husable := h.usable
  simp only [Files.isUnusable, Bool.or_eq_false_iff] at husable
  rw [Files.Address.ofPath?]
  dsimp only
  rw [husable.2, if_neg nofun, h.scheme_none, if_neg nofun]

/-- A plain name is that of a file, not of a database in memory. -/
theorem site : Files.Address.site { name := s.path } = .file s.path := by
  have hfiled : Files.Address.isFiled { name := s.path } = true := by
    simpa [Files.Address.isFiled] using h.filed
  rw [Files.Address.site, hfiled]
  dsimp only
  rw [if_neg nofun, if_neg h.path_ne, if_neg (by decide)]

/-- A path names a file as long as the directories on the way to it stay. -/
theorem of_keepsDirectories {u : FileTree} (hkeeps : t.KeepsDirectories u) : u.IsNamed s place where
  poolSize_ne := h.poolSize_ne
  poolSize_le := h.poolSize_le
  scheme_none := h.scheme_none
  filed := h.filed
  made := makeParent_of_keepsDirectories (t := t) (by rw [h.made]) (by rwa [h.made])
  resolve := resolve?_of_keepsDirectories hkeeps h.resolve

end IsNamed

/-! ## Openings that succeed -/

section Succeeding

variable {f : LedgerFile} (hguarded : t.Guarded place f) (hidle : f.attached = false)
  (hcomplete : f.database.IsComplete)

include hguarded hidle hcomplete

/-- Nothing is in the way of one who enters an undisturbed ledger with its journal. -/
theorem entryFault?_eq_none (mode : JournalMode) : t.entryFault? place true mode = none := by
  have hblank : f.isBlank = false := by
    rw [LedgerFile.isBlank, decide_eq_false hcomplete.ne_blank, Bool.false_and]
  rw [entryFault?, (hguarded.undisturbed hidle).fault?, hguarded.ledgerAt, hblank]
  simp

/-- Entering an undisturbed ledger changes nothing. -/
theorem enter_eq (mode : JournalMode) : enter place true mode t = ⟨.ok (), t, []⟩ := by
  have hdrop : change (fun t => .ok ((), t.dropJournal place)) t =
      (⟨.ok (), t, []⟩ : Outcome StoreError FileTree Unit) :=
    change_ok (by rw [hguarded.dropJournal])
  rw [enter, bind_apply, look_apply, entryFault?_eq_none hguarded hidle hcomplete]
  dsimp only [Option.elim_none]
  rw [hdrop]
  rfl

/-- The journal of a file that rests can be set up. -/
theorem answer_setUpJournal (mode : JournalMode) :
    (setUpJournal place true mode t).answer = .ok () := by
  have henter := enter_eq hguarded hidle hcomplete mode
  have hmay : (true && !t.lacksIndex (.file place)) = true := by rw [hguarded.lacksIndex]; rfl
  rw [setUpJournal, answer_bind henter]
  refine (answer_look_bind (a := true) ?_ _).trans ?_
  · exact congrArg Except.ok hmay
  change (LedgerFile.setJournal true mode (t.ledgerAt (.file place))).answer = .ok ()
  rw [hguarded.ledgerAt]
  exact LedgerFile.answer_setJournal hguarded.lock_none hidle mode

omit hidle in
/-- The ledger in a file with a complete schema can be opened. -/
theorem answer_openHome {a : Files.Address} (hwrite : a.mayWrite = true) :
    (openHome (.file place) a s t).answer = .ok (.ledger (.file place) true (freshReaders s)) := by
  have hprepared : (onLedger (.file place) (LedgerFile.prepareSchema true) t).answer = .ok () := by
    change (LedgerFile.prepareSchema true (t.ledgerAt (.file place))).answer = .ok ()
    rw [hguarded.ledgerAt, LedgerFile.prepareSchema_apply, hcomplete.prepare]
  have hmay : (a.mayWrite && !t.lacksIndex (.file place)) = true := by
    rw [hwrite, hguarded.lacksIndex]
    rfl
  rw [openHome]
  refine (answer_look_bind (a := true) ?_ _).trans ?_
  · exact congrArg Except.ok hmay
  rw [(bind_ok hprepared _).1, hwrite]
  rfl

end Succeeding

namespace RestsAt

variable (h : RestsAt first place (· = db) t) (hcomplete : db.IsComplete)

include h hcomplete

/-- The file that rests can be opened by an address of it under which others may use it too. -/
theorem answer_openFile {a : Files.Address} (hwrite : a.mayWrite = true)
    (hshared : a.isUnshared = false) :
    (openFile place a s t).answer = .ok (.ledger (.file place) true (freshReaders s)) := by
  have hclaim : (claim a.mode place t).answer = .ok () := by
    obtain ⟨-, f, hguarded, -⟩ := h
    rw [claim, change, findLedger, hguarded.entry, ok_bind]
  rw [openFile_eq (isImmutable_of_mayWrite hwrite), (bind_ok hclaim _).1, hshared,
    if_neg Bool.false_ne_true, hwrite]
  obtain ⟨hdirectories, f, hguarded, hrests⟩ := keeps_claim a.mode t h
  have hset := answer_setUpJournal hguarded hrests.attached_false (hrests.database ▸ hcomplete)
    s.journalMode
  rw [(bind_ok hset _).1]
  obtain ⟨-, g, hguarded', hrests'⟩ := keeps_setUpJournal (D := (· = db)) true s.journalMode _
    ⟨hdirectories, f, hguarded, hrests⟩
  exact answer_openHome hguarded' (hrests'.database ▸ hcomplete) hwrite

/-- Settings that name the file that rests open it. -/
theorem opensAt (hnamed : first.IsNamed s place) (hhold : first.MayHold place) :
    t.OpensAt s place := by
  have hnow := hnamed.of_keepsDirectories h.1
  have hdatabase {u : FileTree} (hu : first.KeepsDirectories u) :
      u.databasePlace? s.path = some place :=
    databasePlace?_of_resolve? (resolve?_of_keepsDirectories hu hnamed.resolve)
      (hhold.of_keepsDirectories hu)
  have hsettings : t.checkSettings s = .ok () := by
    have hfree : t.isDirectory s.path = false := by
      obtain ⟨-, f, hguarded, -⟩ := h
      rw [isDirectory, hnow.resolve, Option.any_some, hguarded.not_directory]
    have hpool : ¬ (s.poolSize = 0 ∨ poolLimit < s.poolSize.toNat) :=
      not_or.mpr ⟨hnamed.poolSize_ne, Nat.not_lt.mpr hnamed.poolSize_le⟩
    rw [checkSettings, if_neg hpool, if_neg hnamed.path_ne, hfree, if_neg nofun]
  have haddress : (openAddress { name := s.path } s t).answer =
      .ok (.ledger (.file place) true (freshReaders s)) := by
    have hfile := h.answer_openFile (s := s) (a := { name := s.path }) hcomplete rfl rfl
    have hafter := (keeps_openFile hcomplete.keptByPrepare (a := { name := s.path }) rfl s t h).1
    -- The place is looked for before the file is opened, and once more behind that.
    rw [openAddress, hnamed.site]
    refine (answer_look_bind (a := ()) ?_ _).trans ((answer_look_bind (a := place) ?_ _).trans ?_)
    · rfl
    · rw [hdatabase h.1]
      rfl
    · rw [(bind_ok hfile _).1, look_apply, hdatabase hafter]
      rfl
  refine ⟨⟨freshReaders s, ?_⟩, ?_, ?_⟩
  · rw [openStore]
    refine (answer_look_bind (a := ()) ?_ _).trans ?_
    · exact hsettings
    rw [answer_bind hnow.made, hnow.ofPath?]
    exact (bind_ok haddress _).1
  · obtain ⟨-, f, hguarded, -⟩ := h
    rw [hnow.made]
    exact hguarded.toIsClear
  · obtain ⟨-, f, hguarded, hrests⟩ := h
    rw [hnow.made]
    intro other hother
    obtain rfl := FileEntry.ledger.inj (Option.some.inj (hguarded.entry.symm.trans hother))
    exact ⟨hrests.lock_none, hrests.settled_some, hrests.attached_false⟩

end RestsAt

end FileTree

end JobLedger
