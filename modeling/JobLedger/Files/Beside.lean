import JobLedger.Files.Tree

/-!
# Files beside a database

While it is in use a database has other files beside its own: a journal or a log, and an index of
the log. They bear its name with an ending. Whoever starts to read looks at them first. A directory
in the place of one of them is in the way; without an index what is there can only be read. A
journal is taken for the trace of a change that was cut short and has to be undone, for which the
database may not be in use; once that is done it is gone.
-/

namespace JobLedger

open Text

/-- A file beside the one of a database. -/
inductive SideFile where
  /-- Old pages, as long as a change is being made. -/
  | journal
  /-- New pages. -/
  | log
  /-- The index of the log. -/
  | index
  deriving DecidableEq, Repr

/-- The ending of the name. -/
def SideFile.ending : SideFile → String
  | journal => "-journal"
  | log => "-wal"
  | index => "-shm"

/-- The place of a file beside a database. -/
def SideFile.of (side : SideFile) (place : Place) : Place :=
  place.dropLast ++ [place.getLast?.getD "" ++ side.ending]

namespace FileTree

variable (t : FileTree)

/-- The content of the log and of the index while they are in use; no text. -/
def logContent : Octets := [0xFF, 0xFF]

/-- A directory is in the place of a file beside a database. -/
def isBarred (place : Place) (side : SideFile) : Bool := t.isDirectoryAt (side.of place)

/-- The first octet in the journal of a database, if there is one. -/
def journalStart (place : Place) : Octets :=
  match t.find? (SideFile.journal.of place) with
  | some (.file content) => content.take 1
  | some (.ledger f) => if f.isBlank then [] else logContent.take 1
  | _ => []

/-- There is something in the journal of a database. -/
def hasJournal (place : Place) : Bool := t.journalStart place ≠ []

/-- The journal of a database starts like one of a change that was cut short. -/
def hasHotJournal (place : Place) : Bool := (t.journalStart place).any (· ≠ 0)

/-- A ledger is kept with a log, and there cannot be an index of that. -/
def lacksIndex (home : Home) : Bool :=
  match home with
  | .file place => (t.ledgerAt home).journal = .wal && t.isBarred place .index
  | .memory _ => false

/-- The log that a ledger is altogether in was written over. Only those who have read it before find
what was in it. -/
def isTorn : Home → Bool
  | .file place =>
    (t.ledgerAt (.file place)).isInLog &&
      t.find? (SideFile.log.of place) ≠ some (.file logContent)
  | .memory _ => false

/-- What is in a file is no ledger. -/
def isForeign (place : Place) : Bool :=
  match t.find? place with
  | some (.file content) => (ledgerIn content).toOption.isNone
  | _ => false

/-- What is in the way of one who starts to read the ledger at home. -/
def fault? (home : Home) : Option (String → StoreError) :=
  let f := t.ledgerAt home
  if f.isShut then some .locked
  else
    match home with
    | .memory _ => none
    | .file place =>
      if t.isBarred place .log ∨ t.isTorn home ∨ t.isForeign place then some .failed
      else if f.isBlank ∨ (f.journal = .delete ∧ f.lock.isSome) then none
      else if t.isBarred place .journal ∨ f.isCut then some .failed
      else if f.journal = .wal ∧ (f.attached ∨ f.lock.isSome) ∧ t.hasHotJournal place then
        some .locked
      else none

/-- There is the trace of a change that has to be undone before the ledger can be read. -/
def hasJournalLeft (place : Place) : Bool :=
  let f := t.ledgerAt (.file place)
  !f.isBlank && (f.journal = .wal || f.lock = none) && t.hasHotJournal place

/-- The tree when one who starts to read has done away with a journal that is left. -/
def dropJournal (place : Place) : FileTree :=
  let isBlank := (t.ledgerAt (.file place)).isBlank
  if t.hasJournalLeft place ∨ (isBlank ∧ t.hasJournal place) then
    t.erase (SideFile.journal.of place)
  else t

/-- The tree when someone new has read the ledger at home. -/
def afterRead : Home → FileTree
  | .file place => t.dropJournal place
  | .memory _ => t

/-- The log of a ledger. There is nothing in it before the first change. -/
def logOf (f : LedgerFile) : Octets := if f.settled = some f.database then [] else logContent

/-- The tree with a file beside a database, unless a directory is in the way. -/
def putSide (place : Place) (side : SideFile) (content : Octets) : FileTree :=
  if t.isBarred place side then t else t.put (side.of place) (.file content)

/-- The tree without a file beside a database. -/
def eraseSide (place : Place) (side : SideFile) : FileTree :=
  if t.isBarred place side then t else t.erase (side.of place)

/-- The tree with the ledger at home changed. There is a journal of the change, unless a log takes
it, and nothing is left of that. -/
def changeLedger (home : Home) (f : LedgerFile) : FileTree :=
  let old := t.ledgerAt home
  let changed := t.putLedger home f
  match home with
  | .file place =>
    let isLogged := old.journal = .wal ∧ f.journal = .wal
    if isLogged ∨ (old.journal = f.journal ∧ old.database = f.database) then changed
    else changed.eraseSide place .journal
  | .memory _ => changed

/-- The tree when the log of the ledger at a place is in use. -/
def keepLog (place : Place) : FileTree :=
  let f := t.ledgerAt (.file place)
  if f.attached then
    if t.find? (SideFile.log.of place) = some (.file []) then t.putSide place .log (logOf f)
    else t
  else
    let t := t.put place (.ledger { f with attached := true })
    (t.putSide place .log (logOf f)).putSide place .index logContent

/-- The tree when the log of the ledger at a place is not in use any more. What was in a log that was
written over is lost. -/
def closeLog (place : Place) : FileTree :=
  let f := t.ledgerAt (.file place)
  let entry := if t.isTorn (.file place) then .file logContent
    else .ledger { f with attached := false }.settle
  ((t.put place entry).eraseSide place .log).eraseSide place .index

end FileTree

end JobLedger
