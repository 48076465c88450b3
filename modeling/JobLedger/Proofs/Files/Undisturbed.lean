import JobLedger.Files.Session
import JobLedger.Proofs.Durable.Mirroring

/-!
# Sessions that have their files to themselves

A session writes to the ledger in a file. As long as nobody else has that locked, and nobody else
puts anything beside it, whatever the session does leaves it so: its readers and its writer find the
ledger, and nothing is in their way.
-/

namespace JobLedger

open Text

/-- The places of two files beside a database are the same only if the files are. -/
theorem SideFile.of_inj {side other : SideFile} {place : Place}
    (h : side.of place = other.of place) : side = other := by
  have hname := List.cons.inj (List.append_cancel_left h)
  have hending : side.ending = other.ending := by
    have hlist := congrArg String.toList hname.1
    rw [String.toList_append, String.toList_append] at hlist
    exact String.toList_inj.mp (List.append_cancel_left hlist)
  cases side <;> cases other <;> first | rfl | exact absurd hending (by decide)

/-- Two files beside a database are at different places. -/
theorem SideFile.of_ne_of {side other : SideFile} (h : side ≠ other) (place : Place) :
    side.of place ≠ other.of place :=
  fun heq => h (SideFile.of_inj heq)

/-- A file beside a database is not in its place. -/
theorem SideFile.of_ne (side : SideFile) (place : Place) : side.of place ≠ place := by
  intro h
  have hending : side.ending ≠ "" := by cases side <;> decide
  cases hlast : place.getLast? with
  | none =>
    rw [List.getLast?_eq_none_iff] at hlast
    subst hlast
    exact nomatch h
  | some last =>
    obtain ⟨before, rfl⟩ := List.getLast?_eq_some_iff.mp hlast
    rw [SideFile.of, List.dropLast_concat, hlast, Option.getD_some] at h
    have hname := (List.cons.inj (List.append_cancel_left h)).1
    have hlist := congrArg String.toList hname
    rw [String.toList_append, List.append_right_eq_self] at hlist
    exact hending (String.toList_inj.mp hlist)

namespace FileTree

section Beside

variable {t u : FileTree} {place : Place} {side : SideFile} {content : Octets}

/-- Whether a side file is in the way depends on what is at its place. -/
theorem isBarred_of_find? (h : u.find? (side.of place) = t.find? (side.of place)) :
    u.isBarred place side = t.isBarred place side := by
  rw [isBarred, isBarred, isDirectoryAt, isDirectoryAt, h]

/-- What is put in the place of a database is in the way of no file beside it. -/
theorem isBarred_put (entry : FileEntry) :
    (t.put place entry).isBarred place side = t.isBarred place side :=
  isBarred_of_find? (by rw [find?_put, if_neg (SideFile.of_ne side place)])

/-- A file is no directory, and not in the way. -/
theorem isBarred_of_file (h : t.find? (side.of place) = some (.file content)) :
    t.isBarred place side = false := by
  rw [isBarred, isDirectoryAt, h]
  rfl

/-- A file is put where nothing is in its way. -/
theorem find?_putSide (h : t.isBarred place side = false) :
    (t.putSide place side content).find? (side.of place) = some (.file content) := by
  rw [putSide, h, if_neg Bool.false_ne_true, find?_put, if_pos rfl]

end Beside

/-- No file beside the one at a place is in its way. -/
structure IsClear (t : FileTree) (place : Place) : Prop where
  journal_none : t.find? (SideFile.journal.of place) = none
  log_free : t.isBarred place .log = false
  index_free : t.isBarred place .index = false

namespace IsClear

variable {t : FileTree} {place : Place} (h : t.IsClear place)

include h

/-- What is put at a place leaves the side files as they were. -/
theorem put (entry : FileEntry) : (t.put place entry).IsClear place where
  journal_none := by rw [find?_put, if_neg (SideFile.of_ne _ place), h.journal_none]
  log_free := (isBarred_put entry).trans h.log_free
  index_free := (isBarred_put entry).trans h.index_free

/-- Where there is no journal, there is nothing to roll back. -/
theorem journalStart : t.journalStart place = [] := by
  rw [FileTree.journalStart, h.journal_none]

/-- There is no journal to be done away with. -/
theorem dropJournal : t.dropJournal place = t := by
  have hleft : t.hasJournalLeft place = false := by
    rw [hasJournalLeft, hasHotJournal, h.journalStart, List.any_nil, Bool.and_false]
  have hnone : t.hasJournal place = false := by
    rw [hasJournal, h.journalStart]
    rfl
  simp [FileTree.dropJournal, hleft, hnone]

end IsClear

/-- The file at a place holds a ledger that nobody has locked, and no file beside it is in the way. -/
structure Guarded (t : FileTree) (place : Place) (f : LedgerFile) : Prop
    extends IsClear t place where
  entry : t.find? place = some (.ledger f)
  lock_none : f.lock = none
  settled_some : f.settled.isSome

/-- A ledger that nobody has locked may be put where nothing is in the way. -/
theorem IsClear.guarded {t : FileTree} {place : Place} (h : t.IsClear place) {f : LedgerFile}
    (hlock : f.lock = none) (hsettled : f.settled.isSome) :
    (t.put place (.ledger f)).Guarded place f where
  toIsClear := h.put _
  entry := by rw [find?_put, if_pos rfl]
  lock_none := hlock
  settled_some := hsettled

namespace Guarded

variable {t : FileTree} {place : Place} {f : LedgerFile} (h : t.Guarded place f)

include h

/-- An undisturbed ledger is found at its place. -/
theorem ledgerAt : t.ledgerAt (.file place) = f := by
  rw [FileTree.ledgerAt, h.entry]

/-- An undisturbed ledger can have the index that it needs. -/
theorem lacksIndex : t.lacksIndex (.file place) = false := by
  rw [FileTree.lacksIndex, h.index_free, Bool.and_false]

/-- A log or an index may be put beside the ledger. -/
theorem putSide (side : SideFile) (hside : side ≠ .journal) (content : Octets) :
    (t.putSide place side content).Guarded place f := by
  have hfree : t.isBarred place side = false := by
    cases side with
    | journal => exact absurd rfl hside
    | log => exact h.log_free
    | index => exact h.index_free
  have hplace {other : SideFile} (hother : t.isBarred place other = false) :
      (t.put (side.of place) (.file content)).isBarred place other = false := by
    rw [isBarred, isDirectoryAt, find?_put]
    split
    · rfl
    · exact hother
  rw [FileTree.putSide, hfree, if_neg nofun]
  exact {
    entry := by rw [find?_put, if_neg (SideFile.of_ne side place).symm, h.entry]
    lock_none := h.lock_none
    settled_some := h.settled_some
    journal_none := by
      rw [find?_put, if_neg (SideFile.of_ne_of hside place).symm, h.journal_none]
    log_free := hplace h.log_free
    index_free := hplace h.index_free }

/-- A file beside the ledger may be done away with. -/
theorem eraseSide (side : SideFile) : (t.eraseSide place side).Guarded place f := by
  have hplace {other : SideFile} (hother : t.isBarred place other = false) :
      (t.erase (side.of place)).isBarred place other = false := by
    rw [isBarred, isDirectoryAt, find?_erase]
    split
    · rfl
    · exact hother
  rw [FileTree.eraseSide]
  split
  · exact h
  · exact {
      entry := by rw [find?_erase, if_neg (SideFile.of_ne side place).symm, h.entry]
      lock_none := h.lock_none
      settled_some := h.settled_some
      journal_none := by
        rw [find?_erase]
        split
        · rfl
        · exact h.journal_none
      log_free := hplace h.log_free
      index_free := hplace h.index_free }

/-- A ledger that is changed leaves no journal. -/
theorem changeLedger (next : LedgerFile) (hlock : next.lock = none)
    (hsettled : next.settled.isSome) :
    (t.changeLedger (.file place) next).Guarded place next := by
  have hguarded := h.toIsClear.guarded hlock hsettled
  rw [FileTree.changeLedger]
  dsimp only [putLedger]
  split
  · exact hguarded
  · exact hguarded.eraseSide .journal

end Guarded

/-- The files beside a ledger are those that its own sessions put there: what it has in its log only
has not been written over. -/
structure Undisturbed (t : FileTree) (place : Place) (f : LedgerFile) : Prop
    extends Guarded t place f where
  log_kept : f.isInLog → t.find? (SideFile.log.of place) = some (.file logContent)

/-- Nothing is in the log of a ledger that rests. -/
theorem Guarded.undisturbed {t : FileTree} {place : Place} {f : LedgerFile}
    (h : t.Guarded place f) (hidle : f.attached = false) : t.Undisturbed place f := by
  refine ⟨h, fun hlog => ?_⟩
  rw [LedgerFile.isInLog, LedgerFile.isLogged, hidle, Bool.and_false] at hlog
  cases hlog

namespace Undisturbed

variable {t : FileTree} {place : Place} {f : LedgerFile} (h : t.Undisturbed place f)

include h

/-- Nothing is half-written in an undisturbed ledger. -/
theorem isTorn : t.isTorn (.file place) = false := by
  rw [FileTree.isTorn, h.ledgerAt]
  cases hlog : f.isInLog with
  | false => rfl
  | true => simp [h.log_kept hlog]

/-- Nothing is in the way of one who starts to read. -/
theorem fault? : t.fault? (.file place) = none := by
  have hshut : f.isShut = false := by rw [LedgerFile.isShut, h.lock_none]; simp
  have hforeign : t.isForeign place = false := by rw [isForeign, h.entry]
  have hbarred : t.isBarred place .journal = false := by
    rw [isBarred, isDirectoryAt, h.journal_none]
    rfl
  have hcut : f.isCut = false := by
    rw [LedgerFile.isCut, Option.isNone_eq_false_iff.mpr h.settled_some, Bool.and_false]
  have hhot : t.hasHotJournal place = false := by rw [hasHotJournal, h.journalStart]; rfl
  simp [FileTree.fault?, h.ledgerAt, hshut, h.log_free, h.isTorn, hforeign, hbarred, hcut, hhot]

/-- The session of the ledger changes it. -/
theorem changeLedger (db : Database) :
    (t.changeLedger (.file place) { f with database := db }).Undisturbed place
      { f with database := db } := by
  have hlog (hkept : f.isInLog) :
      (t.put place (.ledger { f with database := db })).find? (SideFile.log.of place) =
        some (.file logContent) := by
    rw [find?_put, if_neg (SideFile.of_ne _ place)]
    exact h.log_kept hkept
  refine ⟨h.toGuarded.changeLedger _ h.lock_none h.settled_some, fun hkept => ?_⟩
  rw [FileTree.changeLedger]
  dsimp only [putLedger]
  split
  · exact hlog hkept
  · rw [eraseSide]
    split
    · exact hlog hkept
    · have hne : SideFile.log ≠ .journal := nofun
      rw [find?_erase, if_neg (SideFile.of_ne_of hne place)]
      exact hlog hkept

omit h in
/-- What a ledger has in its log only is written there. -/
theorem logOf_eq (hdatabase : f.database ≠ .blank) (hlog : f.isInLog) : logOf f = logContent := by
  rw [LedgerFile.isInLog, Bool.and_eq_true] at hlog
  refine if_neg fun hsettled => hdatabase ?_
  have hblank := hlog.2
  rw [hsettled, Option.all_some, decide_eq_true_eq] at hblank
  exact hblank

/-- The session of the ledger takes its log into use, or goes on to write in it. -/
theorem keepLog (hdatabase : f.database ≠ .blank) :
    ∃ attached, (t.keepLog place).Undisturbed place { f with attached } := by
  refine ⟨true, ?_⟩
  rw [FileTree.keepLog]
  dsimp only
  rw [h.ledgerAt]
  cases hattached : f.attached with
  | true =>
    have hf : { f with attached := true } = f := by rw [← hattached]
    rw [hf, if_pos rfl]
    split
    · refine ⟨h.toGuarded.putSide .log nofun _, fun hkept => ?_⟩
      rw [find?_putSide h.log_free, logOf_eq hdatabase hkept]
    · exact h
  | false =>
    have hput := h.toIsClear.guarded (f := { f with attached := true }) h.lock_none h.settled_some
    have hlog := hput.putSide .log nofun (logOf f)
    have hne : SideFile.log ≠ .index := nofun
    rw [if_neg nofun]
    refine ⟨hlog.putSide .index nofun _, fun hkept => ?_⟩
    rw [putSide, hlog.index_free, if_neg nofun, find?_put, if_neg (SideFile.of_ne_of hne place),
      find?_putSide hput.log_free]
    have hlogOf := logOf_eq (f := { f with attached := true }) hdatabase hkept
    exact congrArg (fun content => some (FileEntry.file content)) hlogOf

end Undisturbed

end FileTree

namespace OpenLedger

/-- A session has the ledger in a file to itself, and may write to it. -/
def Holds (l : OpenLedger) (m : Memory) : Prop :=
  ∃ place readers f, l.session = .ledger (.file place) true readers ∧
    l.files.Undisturbed place f ∧ f.database = m.database

/-- A session that joins an undisturbed ledger leaves it undisturbed. -/
theorem attach_undisturbed {t : FileTree} {place : Place} {f : LedgerFile} (mayWrite : Bool)
    (readers : List Bool) (h : t.Undisturbed place f) (hdatabase : f.database ≠ .blank) :
    ∃ attached, (t.attach (.ledger (.file place) mayWrite readers)).Undisturbed place
      { f with attached } := by
  rw [FileTree.attach]
  split
  · exact h.keepLog hdatabase
  · exact ⟨f.attached, h⟩

/-- The database of a ledger has a schema. -/
theorem database_ne_blank (m : Memory) : m.database ≠ .blank := by
  intro h
  exact nomatch congrArg Database.versions h

section Served

variable {t : FileTree} {place : Place} {f : LedgerFile} (h : t.Undisturbed place f)
  (mayWrite : Bool) (readers : List Bool)

include h

/-- Nothing is in the way of a reader of an undisturbed ledger. -/
theorem readFault?_eq_none : readFault? ⟨t, .ledger (.file place) mayWrite readers⟩ = none := by
  rw [readFault?]
  dsimp only
  split
  · rfl
  · exact h.fault?

/-- Nothing is in the way of the writer of an undisturbed ledger. -/
theorem writeFault?_eq_none : writeFault? ⟨t, .ledger (.file place) true readers⟩ = none := by
  simp [writeFault?, h.lacksIndex, h.ledgerAt, h.lock_none, h.fault?]

/-- A reader finds the database that is in an undisturbed ledger. -/
theorem readable_eq (operation : String) :
    readable ⟨t, .ledger (.file place) mayWrite readers⟩ operation = .ok f.database := by
  rw [readable, readFault?_eq_none h]
  dsimp only [refuse]
  rw [ok_bind, h.ledgerAt]

/-- A reader of an undisturbed ledger is ready. -/
theorem isReady_eq (operation : String) :
    isReady ⟨t, .ledger (.file place) mayWrite readers⟩ operation = .ok () := by
  rw [isReady]
  split
  · rfl
  · rw [readFault?_eq_none h]
    rfl

/-- The writer finds the database that is in an undisturbed ledger. -/
theorem writable_eq (operation : String) :
    writable ⟨t, .ledger (.file place) true readers⟩ operation = .ok f.database := by
  rw [writable, writeFault?_eq_none h]
  dsimp only [refuse]
  rw [ok_bind, h.ledgerAt]

/-- What is written is in the file, or in its log. -/
theorem keep_undisturbed {next : Database} (hnext : next ≠ .blank) :
    ∃ after attached others, keep ⟨t, .ledger (.file place) mayWrite readers⟩ next =
        ⟨after, .ledger (.file place) mayWrite others⟩ ∧
      after.Undisturbed place { f with database := next, attached } := by
  obtain ⟨attached, hattached⟩ :=
    attach_undisturbed mayWrite readers (h.changeLedger next) hnext
  rw [keep]
  dsimp only
  rw [h.ledgerAt]
  exact ⟨_, attached, _, rfl, hattached⟩

/-- A reader may take the log of the ledger into use when it has had its turn. -/
theorem turn_undisturbed (hdatabase : f.database ≠ .blank) :
    ∃ after attached others, turn ⟨t, .ledger (.file place) mayWrite readers⟩ =
        ⟨after, .ledger (.file place) mayWrite others⟩ ∧
      after.Undisturbed place { f with attached } := by
  cases readers with
  | nil => exact ⟨t, f.attached, [], rfl, h⟩
  | cons first rest =>
    obtain ⟨attached, hattached⟩ := attach_undisturbed mayWrite (first :: rest) h hdatabase
    rw [turn]
    dsimp only
    rw [readFault?_eq_none h mayWrite, FileTree.afterRead, h.dropJournal, Option.isNone_none, if_pos rfl,
      ite_self]
    exact ⟨_, attached, _, rfl, hattached⟩

end Served

/-- A session that has its file to itself serves. -/
theorem serves : Serves Holds where
  readable := by
    rintro ⟨t, session⟩ m ⟨place, readers, f, rfl, h, hdatabase⟩ operation
    exact (readable_eq h true readers operation).trans (congrArg Except.ok hdatabase)
  isReady := by
    rintro ⟨t, session⟩ m ⟨place, readers, f, rfl, h, hdatabase⟩ operation
    exact isReady_eq h true readers operation
  writable := by
    rintro ⟨t, session⟩ m ⟨place, readers, f, rfl, h, hdatabase⟩ operation
    exact (writable_eq h readers operation).trans (congrArg Except.ok hdatabase)
  keep := by
    rintro ⟨t, session⟩ m ⟨place, readers, f, rfl, h, hdatabase⟩ next
    obtain ⟨after, attached, others, hkeep, hafter⟩ :=
      keep_undisturbed h true readers (database_ne_blank next)
    change Holds (OpenLedger.keep _ next.database) next
    rw [hkeep]
    exact ⟨place, others, _, rfl, hafter, rfl⟩
  turn := by
    rintro ⟨t, session⟩ m ⟨place, readers, f, rfl, h, hdatabase⟩
    obtain ⟨after, attached, others, hturn, hafter⟩ :=
      turn_undisturbed h true readers (hdatabase ▸ database_ne_blank m)
    change Holds (OpenLedger.turn _) m
    rw [hturn]
    exact ⟨place, others, _, rfl, hafter, hdatabase⟩

end OpenLedger

end JobLedger
