import JobLedger.Durable.Edit
import JobLedger.Files.Session

/-!
# Work on a ledger from outside

Besides the store others may open the file of a ledger, look at its tables, change them and hold its
lock. They do so outside the rules of the ledger, and a file that is missing is created for them.
-/

namespace JobLedger.FileTree

open Files

/-- What someone else finds under a path. -/
structure Visit where
  address : Address
  /-- Where the ledger is, unless it is one that only its finder sees. -/
  home : Option Home
  file : LedgerFile

/-- Opens the ledger under a path as it is. -/
def visit? (t : FileTree) (path : String) : Option Visit := do
  let address ← Address.ofPath? path
  match address.site with
  | .memory | .scratch => some ⟨address, none, .blank⟩
  | .sharedMemory name => some ⟨address, some (.memory name), t.ledgerAt (.memory name)⟩
  | .file name => do
    let place ← t.databasePlace? name
    let f ← (t.findLedger address.mode place).toOption
    if address.isImmutable then some ⟨address, none, { f with database := f.inFile }⟩
    else some ⟨address, some (.file place), f⟩

/-- Nothing keeps others from reading what they find. -/
def isOpen (t : FileTree) (v : Visit) : Bool :=
  v.address.isAlone || (v.home.bind t.fault?).isNone

/-- The tree with the ledger that was opened put back. A ledger in memory that nobody else has open
is gone. -/
def leave (t : FileTree) (v : Visit) (f : LedgerFile) : FileTree :=
  match v.home with
  | some (.memory name) =>
    if f.attached || f.lock.isSome then t.putLedger (.memory name) f
    else { t with memory := t.memory.filter fun e => e.1 ≠ name }
  | some home => t.changeLedger home f
  | none => t

/-- Looks at the tables under a path. -/
def inspect? {α : Type} (t : FileTree) (path : String) (f : Database → Option α) :
    Option (α × FileTree) := do
  let v ← t.visit? path
  if !t.isOpen v then none
  let t := v.home.elim t t.afterRead
  some (← f v.file.database, t.leave v v.file)

/-- The ledger that was opened can be changed. -/
def isFree (t : FileTree) (v : Visit) : Bool :=
  t.isOpen v && (v.address.isAlone || (v.file.lock.isNone && !v.home.any t.lacksIndex))

/-- Changes the tables under a path. -/
def edit? {α : Type} (t : FileTree) (path : String) (f : Database → Option (α × Database)) :
    Option (α × FileTree) := do
  let v ← t.visit? path
  if !t.isFree v || !v.address.mayWrite then none
  let (a, db) ← f v.file.database
  some (a, t.leave v { v.file with database := db })

/-- Takes a lock on the ledger under a path, unless someone has one. -/
def lock? (t : FileTree) (path : String) (lock : FileLock) : Option FileTree := do
  let v ← t.visit? path
  if !t.isFree v then none
  some (if v.address.isAlone then t else t.leave v { v.file with lock := some lock })

/-- Gives up the lock on the ledger under a path. -/
def unlock (t : FileTree) (path : String) : FileTree :=
  match t.visit? path with
  | some v => t.leave v { v.file with lock := none }
  | none => t

end JobLedger.FileTree
