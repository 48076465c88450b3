import JobLedger.Durable.Schema
import JobLedger.Durable.Settings
import JobLedger.Durable.Store

/-!
# Ledger files

A ledger file keeps a database on the disk. Someone else may hold its lock. A writer then fails; a
reader goes on, except under the old journal and a lock that excludes everyone.

What is changed while a log is in use is in the log at first. The last one to use the log takes it
over into the file.
-/

namespace JobLedger

open JobLedger.Action

/-- How much the lock of a file takes for its holder. -/
inductive FileLock where
  /-- Nobody else may write. -/
  | writers
  /-- Nobody else may write, and under the old journal nobody may read. -/
  | everyone
  deriving DecidableEq, Repr

/-- The file of a ledger. -/
structure LedgerFile where
  database : Database
  journal : JournalMode
  /-- The lock that someone else holds. -/
  lock : Option FileLock
  /-- A store has the file in use, together with a log if there is one. -/
  attached : Bool
  /-- What the file has without its log, while that is in use; nothing if the file was emptied. -/
  settled : Option Database
  deriving DecidableEq

namespace LedgerFile

/-- The file that nothing was ever written to. -/
def blank : LedgerFile := ⟨.blank, .delete, none, false, some .blank⟩

/-- There is nothing in the file. -/
def isBlank (f : LedgerFile) : Bool := f.database = .blank && f.journal = .delete

/-- A store has the log of the file in use. -/
def isLogged (f : LedgerFile) : Bool := f.journal = .wal && f.attached

/-- All there is to the database is in the log. -/
def isInLog (f : LedgerFile) : Bool := f.isLogged && f.settled.all (· = .blank)

/-- The file was emptied, and all there was is in the log. -/
def isCut (f : LedgerFile) : Bool := f.isLogged && f.settled.isNone

/-- The database that the file has without its log. -/
def inFile (f : LedgerFile) : Database :=
  if f.isLogged then f.settled.getD .blank else f.database

/-- The file as it is left when it is not in use any more, unless someone has it locked. -/
def settle (f : LedgerFile) : LedgerFile :=
  if f.attached || f.lock.isSome then f else { f with settled := some f.database }

/-- Nobody else can read the file. -/
def isShut (f : LedgerFile) : Bool := f.journal = .delete && f.lock = some .everyone

/-- The database as a reader finds it. -/
def readable (f : LedgerFile) (operation : String) : Except StoreError Database :=
  if f.isShut then .error (.locked operation) else .ok f.database

/-- The database as a writer finds it. -/
def writable (f : LedgerFile) (operation : String) : Except StoreError Database :=
  if f.lock.isSome then .error (.locked operation) else .ok f.database

instance : KeepsDatabase LedgerFile where
  readable := readable
  isReady _ _ := .ok ()
  writable := writable
  keep f db := { f with database := db }
  turn f := f

/-- Changes how the file keeps its journal. That needs the right to write, the file for oneself
where a log is to go, and the lock in any case. -/
def setJournal (mayWrite : Bool) (mode : JournalMode) : Action StoreError LedgerFile Unit :=
  change fun f =>
    if f.isShut then .error (.locked "set journal mode")
    else if f.journal = mode then .ok ((), f.settle)
    else if !mayWrite then .error (.failed "set journal mode")
    else if f.lock.isSome || (f.journal = .wal && f.attached) then
      .error (.locked "set journal mode")
    else .ok ((), { f.settle with journal := mode })

/-- What keeps a statement from writing to the file. -/
def obstacle (f : LedgerFile) (mayWrite : Bool) : Option Obstacle :=
  if !mayWrite then some .right else if f.lock.isSome then some .lock else none

/-- Makes sure that the schema of the file is complete, and reports what was created. -/
def prepareSchema (mayWrite : Bool) : Action StoreError LedgerFile Unit := do
  let created ← change fun f => do
    let (created, db) ← f.database.prepare (f.obstacle mayWrite)
    .ok (created, { f with database := db })
  reportAll (created.map fun o => .schemaObjectCreated o.kind o.name)

end LedgerFile

end JobLedger
