import JobLedger.CommandLine.Run

/-!
# The program

Brings what a request needs from the disk, answers the request, and takes a ledger that has changed
back to the disk.
-/

namespace JobLedger.Program

open Files

/-- The paths on the way to a path, and the path itself. -/
def pathsAlong (path : String) : List String :=
  let names := segments path
  ((List.range names.length).map fun i => "/".intercalate (names.take (i + 1))).filter (· ≠ "")

/-- Brings what is on the disk right under a path. -/
def bringEntry (t : FileTree) (path : String) : IO FileTree := do
  try
    let content ← IO.FS.readBinFile path
    return t.put (FileTree.placeOf path) (.file content.data.toList)
  catch
    | .noFileOrDirectory .. => return t
    | .permissionDenied .. => return t
    | _ => return t.put (FileTree.placeOf path) .directory

/-- Brings what is on the disk under a path and on the way to it. -/
def bring (t : FileTree) (path : String) : IO FileTree :=
  (pathsAlong path).foldlM bringEntry t

/-- The path of the file that a database is kept in, if it is in one. -/
def ledgerPath? (path : String) : Option String :=
  match (Address.ofPath? path).map Address.site with
  | some (.file name) => some name
  | _ => none

/-- The paths of the files beside a database. -/
def sidePaths (path : String) : List String :=
  [SideFile.journal, SideFile.log, SideFile.index].map fun side => path ++ side.ending

/-- Takes the octets at a place for the ledger that they are the image of. -/
def readImage (t : FileTree) (place : Place) : FileTree :=
  match t.find? place with
  | some (.file content) => (LedgerFile.ofImage? content).elim t fun f => t.put place (.ledger f)
  | _ => t

/-- Brings the ledger that a path leads to, with the files beside it. -/
def bringLedger (t : FileTree) (path : String) : IO FileTree := do
  let t ← bring t path
  match ledgerPath? path with
  | some name =>
    let t ← (name :: sidePaths name).foldlM bring t
    return readImage t (FileTree.placeOf name)
  | none => return t

/-- The files that a command needs, and the path of its database if that is known. -/
def gather (env : Environment) (i : Invocation) : IO (FileTree × Option String) := do
  let t ← match LedgerConfig.choosePath i.config env.config with
    | .ok path => bring .start path
    | .error _ => pure .start
  match i.configuration env t with
  | .ok config => return (← bringLedger t config.store.path, some config.store.path)
  | .error _ => return (t, none)

/-- Makes the directory that a path is in, if it is there now. -/
def makeParent (after : FileTree) (path : String) : IO Unit := do
  if let some parent := parent? path then
    if after.isDirectory parent then IO.FS.createDirAll parent

/-- Removes from the disk what is not there any more. -/
def removeGone (before after : FileTree) (path : String) : IO Unit := do
  let place := FileTree.placeOf path
  if (before.find? place).isSome && (after.find? place).isNone then IO.FS.removeFile path

/-- Takes the ledger that a path leads to to the disk, if it is not what it was. -/
def keep (before after : FileTree) (path : String) : IO Unit := do
  makeParent after path
  if let some name := ledgerPath? path then
    let place := FileTree.placeOf name
    if after.find? place ≠ before.find? place then
      if let some (.ledger f) := after.find? place then
        IO.FS.writeBinFile name f.image.toByteArray
    (sidePaths name).forM (removeGone before after)

/-- Runs a command, and tells how it ended. -/
def runCommand (env : Environment) (i : Invocation) (arguments : List String) : IO Ending := do
  let (before, path) ← gather env i
  let (ending, after) := answerArguments env arguments before
  if let some path := path then keep before after path
  return ending

/-- Shows how a program ended, and gives its exit code. -/
def conclude (ending : Ending) : IO UInt32 := do
  IO.print ending.output
  IO.eprint ending.complaint
  return ending.exitCode

/-- Answers arguments in the environment of the process. -/
def answer (arguments : List String) : IO UInt32 := do
  let env : Environment := ⟨← IO.getEnv "BATCH_LEDGER_CONFIG", ← IO.getEnv "RUST_LOG"⟩
  match Request.ofArguments? arguments with
  | some (.run invocation) => conclude (← runCommand env invocation arguments)
  | _ => conclude (answerArguments env arguments .start).1

end JobLedger.Program

/-- The program. -/
def main (arguments : List String) : IO UInt32 := JobLedger.Program.answer arguments
