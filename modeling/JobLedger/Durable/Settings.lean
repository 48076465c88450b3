import JobLedger.Json.Form

/-!
# Settings of a durable store

A durable store is opened under settings: where it keeps its database, how long it waits for a lock,
how the database keeps its journal, and how many sessions read at a time.
-/

namespace JobLedger

open Json

/-- How a database keeps the pages that a change touches. -/
inductive JournalMode where
  /-- New pages go to a log beside the database. -/
  | wal
  /-- Old pages go to a journal that is deleted in the end. -/
  | delete
  deriving DecidableEq, Repr

/-- When a change is safe on the disk. -/
inductive SyncMode where
  | full
  | normal
  deriving DecidableEq, Repr

/-- The label of a journal mode. -/
def JournalMode.label : JournalMode → String
  | wal => "wal"
  | delete => "delete"

/-- The journal mode with a given label. -/
def JournalMode.ofLabel? (label : String) : Option JournalMode :=
  [wal, delete].find? fun mode => mode.label = label

/-- The label of a sync mode. -/
def SyncMode.label : SyncMode → String
  | full => "full"
  | normal => "normal"

/-- The sync mode with a given label. -/
def SyncMode.ofLabel? (label : String) : Option SyncMode :=
  [full, normal].find? fun mode => mode.label = label

/-- The settings of a durable store. -/
structure StoreSettings where
  /-- The path of the database. -/
  path : String
  /-- How long to wait for a lock, in milliseconds. -/
  busyTimeout : UInt64 := 5000
  journalMode : JournalMode := .wal
  syncMode : SyncMode := .full
  /-- The number of sessions that read. -/
  poolSize : UInt64 := 4
  deriving DecidableEq

/-- The most sessions that may read. -/
def poolLimit : Nat := 64

namespace StoreSettings

/-- The names of the fields. -/
def fields : List String :=
  ["path", "busy_timeout_ms", "journal_mode", "sync_mode", "read_pool_size"]

/-- The settings as an object. -/
def form (s : StoreSettings) : Value :=
  .object
    [("path", .text s.path), ("busy_timeout_ms", toJson s.busyTimeout),
      ("journal_mode", .text s.journalMode.label), ("sync_mode", .text s.syncMode.label),
      ("read_pool_size", toJson s.poolSize)]

end StoreSettings

end JobLedger
