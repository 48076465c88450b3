import JobLedger.Durable.Column
import JobLedger.Durable.LedgerFile

/-!
# Direct edits

The tables of a ledger can be looked at and changed from outside, past the rules of the ledger.
Types of columns still hold.
-/

namespace JobLedger

open Text

namespace Table

/-- A table has a column; `key` is the one of row numbers. -/
def hasColumn (ρ : Type) [RowCells ρ] (key name : String) : Bool :=
  name = key || (RowCells.columns ρ).any fun column => column.name = name

variable {ρ : Type} [RowCells ρ] (key : String) (t : Table ρ)

/-- The row whose number a value is, with the number. A text that is a numeral counts as a number. -/
def rowAt? (row : Cell) : Option (Int × ρ) :=
  match Affinity.number.apply row with
  | .int n => (t.find? n).map fun r => (n, r)
  | _ => none

/-- The cell of a column of a row. -/
def getCell? (row : Cell) (name : String) : Option Cell := do
  let (n, r) ← t.rowAt? row
  if name = key then some (.int n) else RowCells.get? name r

/-- The table with the number of a row changed. -/
def renumber? (n next : Int) (r : ρ) : Option (Table ρ) :=
  if next = n then some t
  else if (t.find? next).isSome then none
  else some ((t.remove fun m _ => m = n).put next r)

/-- The number of rows touched, and the table with a cell of a row replaced. Without the row nothing
is replaced. -/
def setCell? (row : Cell) (name : String) (cell : Cell) : Option (Nat × Table ρ) :=
  if !hasColumn ρ key name then none
  else
    match t.rowAt? row with
    | none => some (0, t)
    | some (n, r) =>
      if name = key then
        match Affinity.number.apply cell with
        | .int next => (t.renumber? n next r).map fun t => (1, t)
        | _ => none
      else (RowCells.set? name cell r).map fun r => (1, t.modify n fun _ => r)

/-- The number of rows touched, and the table without a row. -/
def deleteRow (row : Cell) : Nat × Table ρ :=
  match t.rowAt? row with
  | none => (0, t)
  | some (n, _) => (1, t.remove fun m _ => m = n)

end Table

/-- A table that can be edited. -/
inductive EditedTable where
  | object (o : SchemaObject)
  | versions
  deriving DecidableEq

namespace EditedTable

/-- The table of a given name. -/
def ofName? (name : String) : Option EditedTable :=
  if name = "store_meta" then some versions
  else (SchemaObject.all.find? fun o => o.kind = "table" ∧ o.name = name).map object

end EditedTable

namespace Database

variable (db : Database)

/-- The columns of the table of checkpoints. -/
def checkpointColumns : List Column := [⟨"id", .text, true⟩, ⟨"obj", .blob, false⟩]

/-- The checkpoint whose key a value is; a number counts as its numeral. -/
def isCheckpointAt (row : Cell) (entry : Cell × Cell) : Bool :=
  row ≠ .null && entry.1 = Affinity.text.apply row

/-- The number of rows touched, and the checkpoints with a cell of one of them replaced. -/
def setCheckpoint? (row : Cell) (name : String) (cell : Cell) (rows : List (Cell × Cell)) :
    Option (Nat × List (Cell × Cell)) := do
  let column ← checkpointColumns.find? fun c => c.name = name
  match rows.find? (isCheckpointAt row) with
  | none => some (0, rows)
  | some old => do
    let cell ← column.store? cell
    let entry := if name = "id" then (cell, old.2) else (old.1, cell)
    if entry.1 ≠ old.1 ∧ entry.1 ≠ .null ∧ (rows.lookup entry.1).isSome then none
    else some (1, rows.map fun e => if isCheckpointAt row e then entry else e)

/-- The column of the table of versions. -/
def versionColumn : Column := ⟨"version", .number, false⟩

/-- The number of rows touched, and the versions with all of them replaced. -/
def setVersions? (name : String) (cell : Cell) (rows : List Cell) : Option (Nat × List Cell) :=
  if name ≠ versionColumn.name then none
  else if rows.isEmpty then some (0, rows)
  else (versionColumn.store? cell).map fun cell => (rows.length, rows.map fun _ => cell)

/-- Sets a cell of a row and gives the number of rows changed. -/
def setCell? (table : EditedTable) (row : Cell) (name : String) (cell : Cell) :
    Option (Nat × Database) := do
  match table with
  | .object .instances =>
    let (n, t) ← (← db.instances).setCell? "jobinstanceid" row name cell
    some (n, { db with instances := some t })
  | .object .executions =>
    let (n, t) ← (← db.executions).setCell? "jobexecid" row name cell
    some (n, { db with executions := some t })
  | .object .steps =>
    let (n, t) ← (← db.steps).setCell? "stepexecid" row name cell
    some (n, { db with steps := some t })
  | .object .jobStatuses =>
    let (n, t) ← (← db.jobStatuses).setCell? "id" row name cell
    some (n, { db with jobStatuses := some t })
  | .object .stepStatuses =>
    let (n, t) ← (← db.stepStatuses).setCell? "id" row name cell
    some (n, { db with stepStatuses := some t })
  | .object .checkpoints =>
    let (n, rows) ← setCheckpoint? row name cell (← db.checkpoints)
    some (n, { db with checkpoints := some rows })
  | .versions =>
    let (n, rows) ← setVersions? name cell (← db.versions)
    some (n, { db with versions := some rows })
  | _ => none

/-- Removes a row and gives the number of rows removed. -/
def deleteRow? (table : EditedTable) (row : Cell) : Option (Nat × Database) := do
  match table with
  | .object .instances =>
    let (n, t) := (← db.instances).deleteRow row
    some (n, { db with instances := some t })
  | .object .executions =>
    let (n, t) := (← db.executions).deleteRow row
    some (n, { db with executions := some t })
  | .object .steps =>
    let (n, t) := (← db.steps).deleteRow row
    some (n, { db with steps := some t })
  | .object .jobStatuses =>
    let (n, t) := (← db.jobStatuses).deleteRow row
    some (n, { db with jobStatuses := some t })
  | .object .stepStatuses =>
    let (n, t) := (← db.stepStatuses).deleteRow row
    some (n, { db with stepStatuses := some t })
  | .object .checkpoints =>
    let rows ← db.checkpoints
    let kept := rows.filter fun entry => !isCheckpointAt row entry
    some (rows.length - kept.length, { db with checkpoints := some kept })
  | .versions =>
    let rows ← db.versions
    some (rows.length, { db with versions := some [] })
  | _ => none

/-- The cell of a column of a row. -/
def getCell? (table : EditedTable) (row : Cell) (name : String) : Option Cell := do
  match table with
  | .object .instances => (← db.instances).getCell? "jobinstanceid" row name
  | .object .executions => (← db.executions).getCell? "jobexecid" row name
  | .object .steps => (← db.steps).getCell? "stepexecid" row name
  | .object .jobStatuses => (← db.jobStatuses).getCell? "id" row name
  | .object .stepStatuses => (← db.stepStatuses).getCell? "id" row name
  | .object .checkpoints =>
    let entry ← (← db.checkpoints).find? (isCheckpointAt row)
    if name = "id" then some entry.1 else if name = "obj" then some entry.2 else none
  | .versions => if name = versionColumn.name then (← db.versions).head? else none
  | _ => none

/-- The number of rows of a table. -/
def countRows? : EditedTable → Option Nat
  | .object .instances => db.instances.map fun t => t.rows.length
  | .object .executions => db.executions.map fun t => t.rows.length
  | .object .steps => db.steps.map fun t => t.rows.length
  | .object .jobStatuses => db.jobStatuses.map fun t => t.rows.length
  | .object .stepStatuses => db.stepStatuses.map fun t => t.rows.length
  | .object .checkpoints => db.checkpoints.map List.length
  | .versions => db.versions.map List.length
  | _ => none

/-- The database without a table and its indexes. -/
def dropTable? : EditedTable → Option Database
  | .object .instances =>
    db.instances.map fun _ => { db with
      instances := none
      indexes := { db.indexes with instanceName := false, instanceTag := false } }
  | .object .executions =>
    db.executions.map fun _ => { db with
      executions := none, indexes := { db.indexes with executionOwner := false } }
  | .object .steps =>
    db.steps.map fun _ => { db with
      steps := none, indexes := { db.indexes with stepOwner := false } }
  | .object .jobStatuses => db.jobStatuses.map fun _ => { db with jobStatuses := none }
  | .object .stepStatuses => db.stepStatuses.map fun _ => { db with stepStatuses := none }
  | .object .checkpoints => db.checkpoints.map fun _ => { db with checkpoints := none }
  | .versions => db.versions.map fun _ => { db with versions := none }
  | _ => none

/-- Kinds and names of the tables and indexes that are there, indexes first, by name. -/
def objects : List (String × String) :=
  let there := (SchemaObject.all.filter fun o => o.isIn db).map fun o => (o.kind, o.name)
  let all := if db.versions.isSome then ("table", "store_meta") :: there else there
  all.mergeSort fun a b => a.1 < b.1 || (a.1 = b.1 && a.2 ≤ b.2)

end Database

end JobLedger
