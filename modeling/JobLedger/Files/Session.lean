import JobLedger.Files.Address
import JobLedger.Files.Beside

/-!
# Sessions

A store is opened under its settings: the directories on the way to its database are made, a missing
database is created, the journal is set up, and the schema is completed. What was done before an
opening fails is kept. A session then works on a ledger that others can open too, on a database of
its own, which only its writer sees, or on one that nobody changes.

A session reads through a number of connections, which take turns. One that has read before keeps
what it needs to read on; another one has to look at the files beside the database first.
-/

namespace JobLedger

open JobLedger.Action Files Text

/-- Where an open store keeps its database. -/
inductive Session where
  /-- In a ledger that others can open too. For each connection that reads, in the order of their
  turns, `readers` tells whether it has read before. -/
  | ledger (home : Home) (mayWrite : Bool) (readers : List Bool)
  /-- In a database of its own. -/
  | own (database : Database)
  /-- In a file that is taken never to change. -/
  | fixed (database : Database)
  deriving DecidableEq

namespace FileTree

/-- An action on the ledger at home. -/
def onLedger {ε α : Type} (home : Home) (x : Action ε LedgerFile α) : Action ε FileTree α :=
  within (fun t => t.ledgerAt home) (fun t f => t.changeLedger home f) x

/-- The octets of the text that a place is spelled with. -/
def spelledSize (place : Place) : Nat :=
  place.foldl (fun n name => n + 1 + name.utf8ByteSize) 0

/-- The octets that the name of a journal has on top of that of its database. -/
def journalSuffixSize : Nat := SideFile.journal.ending.utf8ByteSize

/-- The most octets of the spelling of a database and of its journal. -/
def spellingLimit : Nat := 512

/-- Names can be followed one by one: none is too long, and none is looked up in what is there but is
no directory. -/
def canFollow (t : FileTree) (here : Place) : List String → Bool
  | [] => true
  | name :: rest =>
    if isIdle name then t.canFollow here rest
    else if name = ".." then t.canFollow here.dropLast rest
    else if nameLimit < name.utf8ByteSize then false
    else
      match t.find? here with
      | some (.file _) | some (.ledger _) => false
      | _ => t.canFollow (here ++ [name]) rest

/-- The place of the database of a name, if one may be there. -/
def databasePlace? (t : FileTree) (name : String) : Option Place :=
  let place := placeOf name
  if spellingLimit < spelledSize place + journalSuffixSize ∨ !t.isDirectoryAt place.dropLast ∨
      !t.canFollow (origin name) (segments name) then none
  else some place

/-- A journal cannot be put beside a database: its name is too long, or a directory is there. -/
def lacksJournal (t : FileTree) (place : Place) : Bool :=
  nameLimit < (place.getLast?.getD "").utf8ByteSize + journalSuffixSize || t.isBarred place .journal

/-- Refuses settings under which nothing can be opened. -/
def checkSettings (t : FileTree) (s : StoreSettings) : Except StoreError Unit :=
  if s.poolSize = 0 ∨ poolLimit < s.poolSize.toNat then .error ⟨.invalid, .poolSize⟩
  else if s.path = "" then .error ⟨.invalid, .emptyPath⟩
  else if t.isDirectory s.path then .error ⟨.invalid, .directory s.path⟩
  else .ok ()

/-- Makes the directories on the way to a database. -/
def makeParent (path : String) : Action StoreError FileTree Unit :=
  match parent? path with
  | none | some "" => answer ()
  | some parent => fun t =>
    let (made, t) := t.makeDirectory parent
    ⟨if made then .ok () else .error ⟨.io, .unreachable parent⟩, t, []⟩

/-- The ledger that is found at a place. -/
def findLedger (t : FileTree) (mode : OpenMode) (place : Place) : Except StoreError LedgerFile :=
  match t.find? place with
  | some (.ledger f) => .ok f
  | some (.file content) => ledgerIn content
  | some .directory => .error (.failed "open ledger")
  | none => if mode = .create then .ok .blank else .error (.failed "open ledger")

/-- Makes sure that there is a ledger at a place. -/
def claim (mode : OpenMode) (place : Place) : Action StoreError FileTree Unit :=
  change fun t => do
    let f ← t.findLedger mode place
    .ok ((), t.put place (.ledger f))

/-- Why a store that is opened cannot read the ledger at a place. Only one who may write does away
with a journal that is left. Where there is nothing in the ledger yet there has to be room for a
journal, unless the log comes first. -/
def entryFault? (t : FileTree) (place : Place) (mayWrite : Bool) (mode : JournalMode) :
    Option StoreError :=
  let f := t.ledgerAt (.file place)
  if !mayWrite ∧ !f.isShut ∧ t.hasJournalLeft place then some (.failed "set journal mode")
  else
    match t.fault? (.file place) with
    | some fault => some (fault (if f.isCut then "schema meta" else "set journal mode"))
    | none =>
      if f.isBlank ∧ t.lacksJournal place then
        some (.failed (if mode = .wal then "set journal mode" else "schema meta"))
      else none

/-- Starts to read the ledger at a place. -/
def enter (place : Place) (mayWrite : Bool) (mode : JournalMode) :
    Action StoreError FileTree Unit := do
  look fun t => (t.entryFault? place mayWrite mode).elim (.ok ()) .error
  change fun t => .ok ((), t.dropJournal place)

/-- Sets up the journal of the ledger at a place, whose files others may use as well. -/
def setUpJournal (place : Place) (mayWrite : Bool) (mode : JournalMode) :
    Action StoreError FileTree Unit := do
  enter place mayWrite mode
  let mayWrite ← look fun t => .ok (mayWrite && !t.lacksIndex (.file place))
  onLedger (.file place) (LedgerFile.setJournal mayWrite mode)

/-- The event of a journal that is not kept in the mode that is asked for. -/
def journalKept (asked : JournalMode) : List Event :=
  if asked = .delete then [] else [.journalModeKept asked.label JournalMode.delete.label]

/-- Leaves the journal of the ledger at a place as it is, where others are taken not to use it. It
may not be a log then. -/
def leaveJournal (place : Place) (mayWrite : Bool) (mode : JournalMode) :
    Action StoreError FileTree Unit := do
  look fun t =>
    if (t.ledgerAt (.file place)).journal = .wal then .error (.failed "set journal mode")
    else .ok ()
  enter place mayWrite .delete
  reportAll (journalKept mode)

/-- The connections of a session that read, before the first of them has read. -/
def freshReaders (s : StoreSettings) : List Bool := List.replicate s.poolSize.toNat false

/-- Opens the ledger at home, whose journal is set up. -/
def openHome (home : Home) (a : Address) (s : StoreSettings) :
    Action StoreError FileTree Session := do
  let mayWrite ← look fun t => .ok (a.mayWrite && !t.lacksIndex home)
  onLedger home (LedgerFile.prepareSchema mayWrite)
  answer (.ledger home a.mayWrite (freshReaders s))

/-- Opens a database in no file that others can open. -/
def openOwn (a : Address) (events : List Event) : Action StoreError FileTree Session := do
  reportAll events
  let (created, db) ← ofExcept (Database.blank.prepare (LedgerFile.blank.obstacle a.mayWrite))
  reportAll (created.map fun o => .schemaObjectCreated o.kind o.name)
  answer (.own db)

/-- Opens what the file at a place has, which is taken never to change. -/
def openFixed (place : Place) (mode : JournalMode) : Action StoreError FileTree Session := do
  reportAll (journalKept mode)
  let db ← look fun t => .ok (t.ledgerAt (.file place)).inFile
  let (_, db) ← ofExcept (db.prepare (some .right))
  answer (.fixed db)

/-- Opens the ledger in the file at a place. -/
def openFile (place : Place) (a : Address) (s : StoreSettings) :
    Action StoreError FileTree Session := do
  claim a.mode place
  if a.isImmutable then openFixed place s.journalMode
  else
    if a.isUnshared then leaveJournal place a.mayWrite s.journalMode
    else setUpJournal place a.mayWrite s.journalMode
    openHome (.file place) a s

/-- The word for the journal of a database in memory. -/
def memoryJournal : String := "memory"

/-- The event of the journal of a database in memory. Of the modes that can be asked for, only a
system of files has one to offer. -/
def memoryKept (a : Address) (asked : JournalMode) : List Event :=
  if a.isFiled ∧ asked = .delete then [] else [.journalModeKept asked.label memoryJournal]

/-- Opens the database at an address. The name of a file has to lead to it also now that the file is
there, for those who read. -/
def openAddress (a : Address) (s : StoreSettings) : Action StoreError FileTree Session :=
  let mode := s.journalMode
  match a.site with
  | .memory => openOwn a (memoryKept a mode)
  | .scratch => openOwn a (journalKept mode)
  | .sharedMemory name => do
    reportAll (memoryKept a mode)
    openHome (.memory name) a s
  | .file name => do
    look fun t => if a.modelFile.all t.isThere then .ok () else .error (.failed "open ledger")
    let place ← look fun t => (t.databasePlace? name).elim (.error (.failed "open ledger")) .ok
    let session ← openFile place a s
    look fun t =>
      if (t.databasePlace? name).isNone then .error (.failed "open ledger reader")
      else .ok session

/-- Opens a store. -/
def openStore (s : StoreSettings) : Action StoreError FileTree Session := do
  look fun t => t.checkSettings s
  makeParent s.path
  let a ← ofOption (.failed "open ledger") (Address.ofPath? s.path)
  let session ← openAddress a s
  report (.storeOpened s.path s.poolSize.toNat s.journalMode.label)
  answer session

/-- Notes that a session uses its ledger. Only a log makes a difference to others. -/
def attach (t : FileTree) : Session → FileTree
  | .ledger (.file place) .. =>
    if (t.ledgerAt (.file place)).journal = .wal then t.keepLog place else t
  | .ledger (.memory name) .. =>
    t.putLedger (.memory name) { t.ledgerAt (.memory name) with attached := true }
  | _ => t

/-- A session has been noted to use the ledger of a session. -/
def isAttached (t : FileTree) : Session → Bool
  | .ledger home .. => (t.ledgerAt home).attached
  | _ => false

/-- Notes that a session is over. A ledger in memory goes with the last one who has it open. -/
def detach (t : FileTree) : Session → FileTree
  | .ledger (.file place) .. =>
    if (t.ledgerAt (.file place)).attached then t.closeLog place else t
  | .ledger (.memory name) .. =>
    let f := t.ledgerAt (.memory name)
    if f.lock.isSome then t.putLedger (.memory name) { f with attached := false }
    else { t with memory := t.memory.filter fun e => e.1 ≠ name }
  | _ => t

end FileTree

/-- The files with a session on one of them. -/
structure OpenLedger where
  files : FileTree
  session : Session
  deriving DecidableEq

namespace OpenLedger

/-- What is in the way of the connection that reads next. -/
def readFault? (l : OpenLedger) : Option (String → StoreError) :=
  match l.session with
  | .ledger home _ readers =>
    if (l.files.ledgerAt home).journal = .wal ∧ readers.head? = some true then none
    else l.files.fault? home
  | _ => none

/-- What is in the way of the writer. It keeps what it needs as long as there is a log. -/
def writeFault? (l : OpenLedger) : Option (String → StoreError) :=
  match l.session with
  | .ledger home mayWrite _ =>
    let f := l.files.ledgerAt home
    if !mayWrite then some fun operation => .failed (Database.firstStatement operation)
    else if l.files.lacksIndex home then some .failed
    else if f.lock.isSome then some .locked
    else if f.journal = .wal then none
    else l.files.fault? home
  | .own _ => none
  | .fixed _ => some fun operation => .failed (Database.firstStatement operation)

/-- Nothing, or the error of an operation that something is in the way of. -/
def refuse (fault : Option (String → StoreError)) (operation : String) : Except StoreError Unit :=
  match fault with
  | some fault => .error (fault operation)
  | none => .ok ()

/-- The database as a reader finds it. In a database of its own the session finds nothing. -/
def readable (l : OpenLedger) (operation : String) : Except StoreError Database := do
  refuse l.readFault? operation
  match l.session with
  | .ledger home .. => .ok (l.files.ledgerAt home).database
  | .own _ => .ok .blank
  | .fixed db => .ok db

/-- The next reader answers. One that has read before need not look at anything. -/
def isReady (l : OpenLedger) (operation : String) : Except StoreError Unit :=
  match l.session with
  | .ledger _ _ (true :: _) => .ok ()
  | _ => refuse l.readFault? operation

/-- The database as a writer finds it. -/
def writable (l : OpenLedger) (operation : String) : Except StoreError Database := do
  refuse l.writeFault? operation
  match l.session with
  | .ledger home .. => .ok (l.files.ledgerAt home).database
  | .own db | .fixed db => .ok db

/-- The state with another database in place. Readers have to look at a log again that was written
over. -/
def keep (l : OpenLedger) (db : Database) : OpenLedger :=
  match l.session with
  | .ledger home mayWrite readers =>
    let files := l.files.changeLedger home { l.files.ledgerAt home with database := db }
    ⟨files.attach l.session,
      .ledger home mayWrite (readers.map fun first => first && !l.files.isTorn home)⟩
  | .own _ => { l with session := .own db }
  | .fixed _ => l

/-- The state when a reader has had its turn. -/
def turn (l : OpenLedger) : OpenLedger :=
  match l.session with
  | .ledger home mayWrite (first :: rest) =>
    let isKnown := first && (l.files.ledgerAt home).journal = .wal
    let answers := l.readFault?.isNone
    let files := if isKnown then l.files else l.files.afterRead home
    ⟨if answers then files.attach l.session else l.files,
      .ledger home mayWrite (rest ++ [first || answers])⟩
  | _ => l

instance : KeepsDatabase OpenLedger := ⟨readable, isReady, writable, keep, turn⟩

end OpenLedger

end JobLedger
