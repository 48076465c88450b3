import JobLedger.Durable.FirstPage
import JobLedger.Durable.LedgerFile
import JobLedger.Files.Path

/-!
# The tree of files

The files that a program can reach: directories, files with their octets, and ledgers. A place is
the list of names that leads to it from the root. A path is followed name by name from the root or
from the working directory, and every place on the way has to be a directory. Beside the files there
are ledgers in memory, which are found by their names and are in no file.
-/

namespace JobLedger

open Files Text

/-- The names that lead to a place from the root. -/
abbrev Place := List String

/-- What is at a place. -/
inductive FileEntry where
  | directory
  | file (content : Octets)
  | ledger (file : LedgerFile)
  deriving DecidableEq

/-- The entries of all places where there is something, and the ledgers in memory. -/
structure FileTree where
  entries : List (Place × FileEntry)
  /-- The ledgers in memory that a program shares under their names. -/
  memory : List (String × LedgerFile) := []
  deriving DecidableEq

/-- Where a ledger is that several can have open. -/
inductive Home where
  | file (place : Place)
  | memory (name : String)
  deriving DecidableEq

namespace FileTree

/-- The place of the working directory. -/
def workPlace : Place := ["work"]

/-- The tree with an empty working directory. -/
def start : FileTree := { entries := [([], .directory), (workPlace, .directory)] }

variable (t : FileTree)

/-- What is at a place. -/
def find? (place : Place) : Option FileEntry := t.entries.lookup place

/-- The tree with something at a place. -/
def put (place : Place) (entry : FileEntry) : FileTree :=
  if (t.find? place).isSome then
    { t with entries := t.entries.map fun e => if e.1 = place then (place, entry) else e }
  else { t with entries := t.entries ++ [(place, entry)] }

/-- The tree with nothing at a place. -/
def erase (place : Place) : FileTree :=
  { t with entries := t.entries.filter fun e => e.1 ≠ place }

/-- The ledger in a file. A single octet counts as nothing. A database without tables is a ledger
that has none yet, if they can be added. -/
def ledgerIn (content : Octets) : Except StoreError LedgerFile :=
  if content.length ≤ 1 then .ok .blank
  else
    match FirstPage.journalMode? content with
    | none => .error (.failed "set journal mode")
    | some journal =>
      if FirstPage.hasRoom content then .ok { LedgerFile.blank with journal }
      else .error (.failed "schema meta")

/-- The ledger at home; nothing is a blank one. -/
def ledgerAt : Home → LedgerFile
  | .file place =>
    match t.find? place with
    | some (.ledger f) => f
    | some (.file content) => (ledgerIn content).toOption.getD .blank
    | _ => .blank
  | .memory name => (t.memory.lookup name).getD .blank

/-- The tree with a ledger at home. -/
def putLedger (home : Home) (f : LedgerFile) : FileTree :=
  match home with
  | .file place => t.put place (.ledger f)
  | .memory name => { t with memory := (name, f) :: t.memory.filter fun e => e.1 ≠ name }

/-- There is a directory at a place. -/
def isDirectoryAt (place : Place) : Bool := t.find? place = some .directory

/-- The place where a path starts. -/
def origin (path : String) : Place := if isRooted path then [] else workPlace

/-- The place that names lead to from another one. -/
def walk (t : FileTree) (here : Place) : List String → Option Place
  | [] => some here
  | name :: rest =>
    if !t.isDirectoryAt here then none
    else if isIdle name then t.walk here rest
    else if name = ".." then t.walk here.dropLast rest
    else if nameLimit < name.utf8ByteSize then none
    else t.walk (here ++ [name]) rest

/-- The place that a path leads to. -/
def resolve? (path : String) : Option Place :=
  if isUnusable path then none else t.walk (origin path) (segments path)

/-- A path leads to a directory. -/
def isDirectory (path : String) : Bool := (t.resolve? path).any t.isDirectoryAt

/-- A path leads to something. -/
def isThere (path : String) : Bool := (t.resolve? path).any fun place => (t.find? place).isSome

/-- Makes the directories along names that are missing; fails where something else is in the way.
Those made before that are kept. -/
def makeAlong (t : FileTree) (here : Place) : List String → Bool × FileTree
  | [] => (true, t)
  | name :: rest =>
    if isIdle name then t.makeAlong here rest
    else if name = ".." then t.makeAlong here.dropLast rest
    else if nameLimit < name.utf8ByteSize then (false, t)
    else
      match t.find? (here ++ [name]) with
      | some .directory => t.makeAlong (here ++ [name]) rest
      | some _ => (false, t)
      | none => (t.put (here ++ [name]) .directory).makeAlong (here ++ [name]) rest

/-- Makes the directory that a path leads to, and those on the way. -/
def makeDirectory (path : String) : Bool × FileTree :=
  if path = "" then (true, t)
  else if isUnusable path then (false, t)
  else t.makeAlong (origin path) (segments path)

/-- The place that the names of a path spell, whatever is on the way. -/
def placeOf (path : String) : Place :=
  (segments path).foldl
    (fun here name =>
      if isIdle name then here else if name = ".." then here.dropLast else here ++ [name])
    (origin path)

/-- What there is once octets were written in the place of something. A ledger goes on as long as it
is altogether in its log. A single octet in a file counts as nothing. -/
def written (content : Octets) : Option FileEntry → FileEntry
  | some (.ledger f) =>
    if f.isInLog then .ledger { f with settled := if content.length ≤ 1 then none else some .blank }
    else .file content
  | _ => .file content

/-- The tree with octets written under a path, and with the directories on the way. -/
def write (path : String) (content : Octets) : FileTree :=
  let (_, made) := t.makeDirectory ((parent? path).getD "")
  match made.resolve? path with
  | some place => made.put place (written content (made.find? place))
  | none => made

/-- An entry that is replaced is found at its place, and the others stay. -/
theorem lookup_replace (place there : Place) (entry : FileEntry)
    (entries : List (Place × FileEntry)) :
    (entries.map fun e => if e.1 = place then (place, entry) else e).lookup there =
      if there = place then (entries.lookup place).map fun _ => entry
      else entries.lookup there := by
  induction entries with
  | nil => simp
  | cons e rest ih =>
    obtain ⟨q, old⟩ := e
    by_cases hq : q = place
    · subst hq
      by_cases hp : there = q
      · simp [hp]
      · have hne : (there == q) = false := by simpa using hp
        simpa [List.lookup_cons, hne, hp] using ih
    · have hpq : (place == q) = false := by simpa using Ne.symm hq
      by_cases hp : there = q
      · subst hp
        simp [hq]
      · have hne : (there == q) = false := by simpa using hp
        simpa [List.lookup_cons, hne, hpq, hq] using ih

/-- What is put at a place is found there, and everything else where it was. -/
theorem find?_put (place there : Place) (entry : FileEntry) :
    (t.put place entry).find? there = if there = place then some entry else t.find? there := by
  unfold put
  split
  · rename_i h
    obtain ⟨old, h⟩ := Option.isSome_iff_exists.1 h
    simp only [find?] at h ⊢
    simp [lookup_replace, h]
  · rename_i h
    have h := Option.not_isSome_iff_eq_none.1 h
    simp only [find?] at h ⊢
    by_cases hp : there = place
    · subst hp
      simp [List.lookup_append, h]
    · have hne : (there == place) = false := by simpa using hp
      simp [List.lookup_append, List.lookup_cons, hne, hp]

/-- Without the entries at one place, those at the others are found. -/
theorem lookup_filter_ne {κ α : Type} [DecidableEq κ] [BEq κ] [LawfulBEq κ] (gone there : κ)
    (entries : List (κ × α)) :
    (entries.filter fun e => e.1 ≠ gone).lookup there =
      if there = gone then none else entries.lookup there := by
  induction entries with
  | nil => simp
  | cons e rest ih =>
    obtain ⟨key, old⟩ := e
    by_cases hk : key = gone
    · subst hk
      by_cases ht : there = key
      · simpa [ht] using ih
      · have hne : (there == key) = false := by simpa using ht
        simpa [List.lookup_cons, hne, ht] using ih
    · by_cases ht : there = key
      · subst ht
        simp [hk]
      · have hne : (there == key) = false := by simpa using ht
        simpa [List.lookup_cons, hne, hk] using ih

/-- What is erased is gone, and everything else is found where it was. -/
theorem find?_erase (place there : Place) :
    (t.erase place).find? there = if there = place then none else t.find? there :=
  lookup_filter_ne place there t.entries

/-- What is in memory is at no place. -/
@[simp] theorem find?_memory (memory : List (String × LedgerFile)) (place : Place) :
    { t with memory }.find? place = t.find? place := rfl

@[simp] theorem memory_put (place : Place) (entry : FileEntry) :
    (t.put place entry).memory = t.memory := by
  unfold put
  split <;> rfl

/-- A ledger that is put somewhere is found there, and the others where they were. -/
theorem ledgerAt_putLedger (home there : Home) (f : LedgerFile) :
    (t.putLedger home f).ledgerAt there = if there = home then f else t.ledgerAt there := by
  cases home with
  | file place =>
    cases there with
    | file q =>
      by_cases h : q = place
      · simp [putLedger, ledgerAt, find?_put, h]
      · simp [putLedger, ledgerAt, find?_put, h]
    | memory name => simp [putLedger, ledgerAt]
  | memory name =>
    cases there with
    | file q => simp [putLedger, ledgerAt]
    | memory other =>
      by_cases h : other = name
      · simp [putLedger, ledgerAt, h]
      · have hne : (other == name) = false := by simpa using h
        have hl := lookup_filter_ne name other t.memory
        rw [if_neg h] at hl
        have he : (t.putLedger (.memory name) f).ledgerAt (.memory other) =
            ((t.memory.filter fun e => e.1 ≠ name).lookup other).getD .blank := by
          simp [putLedger, ledgerAt, List.lookup_cons, hne]
        rw [he, hl]
        simp [ledgerAt, h]

end FileTree

end JobLedger
