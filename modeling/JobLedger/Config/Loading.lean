import JobLedger.Config.Reading
import JobLedger.Durable.Image
import JobLedger.Files.Tree

/-!
# Loading a configuration

A configuration is loaded from the file under a given path, else from the one that the environment
names, else from the one with the default name in the working directory.
-/

namespace JobLedger

open Files Text

/-- The octets of the file under a path. -/
def FileTree.read? (t : FileTree) (path : String) : Option Octets := do
  match ← t.find? (← t.resolve? path) with
  | .directory => none
  | .file content => some content
  | .ledger file => some file.image

namespace LedgerConfig

/-- The name of a configuration file in the working directory. -/
def defaultName : String := "batch-ledger.toml"

/-- The most octets of a configuration file. -/
def fileLimit : Nat := 1048576

/-- The path of the configuration file. `setting` is what the environment names. -/
def choosePath (path setting : Option String) : Except ConfigError String :=
  match path, setting with
  | some path, _ => .ok path
  | none, some path =>
    if pathLimit < path.utf8ByteSize then .error (.invalid .configPathLong) else .ok path
  | none, none => .ok defaultName

/-- Refuses a path of a configuration file that is too long. -/
def checkPath (path : String) : Except ConfigError Unit :=
  if pathLimit < path.utf8ByteSize then .error (.invalid .configPathLong)
  else if hasLongName path then .error (.invalid .configNameLong)
  else .ok ()

/-- The configuration in the octets of a file. -/
def ofFile (content : Octets) : Except ConfigError LedgerConfig :=
  if fileLimit < content.length then .error (.invalid .fileLarge)
  else
    match ofOctets? content with
    | none => .error (.invalid .fileNotText)
    | some text => ofText text

/-- Loads a configuration. -/
def load (t : FileTree) (path setting : Option String) : Except ConfigError LedgerConfig := do
  let path ← choosePath path setting
  checkPath path
  match t.read? path with
  | none => .error .io
  | some content => ofFile content

end LedgerConfig

end JobLedger
