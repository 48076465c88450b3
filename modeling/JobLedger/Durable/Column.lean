import JobLedger.Durable.Numeral
import JobLedger.Durable.Row

/-!
# Columns

Types of columns. A column for numbers takes a text that is a numeral as a number, a column for text
takes a number as its numeral, and a column that needs a value takes no null. The rows of a table
are lists of cells, one for each column besides that of the row numbers.
-/

namespace JobLedger

open Text

/-- What a column makes of a value. -/
inductive Affinity where
  /-- Numerals become numbers. -/
  | number
  /-- Numbers become numerals. -/
  | text
  /-- Values stay as they are. -/
  | blob
  deriving DecidableEq, Repr

/-- A column of a table. -/
structure Column where
  name : String
  affinity : Affinity
  /-- The column takes nulls. -/
  nullable : Bool := false
  deriving DecidableEq

namespace Affinity

/-- The value as a column stores it. -/
def apply : Affinity → Cell → Cell
  | number, .text s => ((Numeral.ofText? s).map Numeral.cell).getD (.text s)
  | text, .int i => .text (integer i)
  | _, cell => cell

end Affinity

namespace Column

/-- The value as a column stores it, unless it is a null that the column does not take. -/
def store? (c : Column) (cell : Cell) : Option Cell :=
  if cell = .null ∧ !c.nullable then none else some (c.affinity.apply cell)

end Column

/-- The rows of a table as lists of cells. -/
class RowCells (ρ : Type) where
  /-- The columns besides the one of row numbers. -/
  columns : List Column
  /-- The cells of a row, one for each column. -/
  cells : ρ → List Cell
  /-- The row of given cells. -/
  ofCells? : List Cell → Option ρ

instance : RowCells InstanceRow where
  columns := [⟨"name", .text, false⟩, ⟨"apptag", .text, false⟩, ⟨"jobdefinition", .text, true⟩]
  cells r := [r.name, r.appTag, r.definition]
  ofCells?
    | [name, appTag, definition] => some ⟨name, appTag, definition⟩
    | _ => none

instance : RowCells ExecutionRow where
  columns :=
    [⟨"jobinstanceid", .number, false⟩, ⟨"createtime", .number, false⟩,
      ⟨"starttime", .number, true⟩, ⟨"endtime", .number, true⟩, ⟨"updatetime", .number, false⟩,
      ⟨"batchstatus", .text, false⟩, ⟨"exitstatus", .text, true⟩, ⟨"parameters", .blob, false⟩]
  cells r :=
    [r.instanceId, r.createTime, r.startTime, r.endTime, r.updateTime, r.status, r.exitStatus,
      r.parameters]
  ofCells?
    | [instanceId, createTime, startTime, endTime, updateTime, status, exitStatus, parameters] =>
      some ⟨instanceId, createTime, startTime, endTime, updateTime, status, exitStatus, parameters⟩
    | _ => none

/-- The columns of the eight counts. -/
def counterColumns : List Column :=
  ["readcount", "writecount", "commitcount", "rollbackcount", "readskipcount",
    "processskipcount", "filtercount", "writeskipcount"].map fun name => ⟨name, .number, false⟩

instance : RowCells StepRow where
  columns :=
    [⟨"jobexecid", .number, false⟩, ⟨"stepname", .text, false⟩, ⟨"batchstatus", .text, false⟩,
      ⟨"exitstatus", .text, true⟩, ⟨"starttime", .number, false⟩, ⟨"endtime", .number, true⟩,
      ⟨"persistentdata", .blob, false⟩] ++ counterColumns
  cells r :=
    [r.executionId, r.stepName, r.status, r.exitStatus, r.startTime, r.endTime, r.userData] ++
      r.counters.toList
  ofCells?
    | executionId :: stepName :: status :: exitStatus :: startTime :: endTime :: userData ::
        counters =>
      (Counters.ofList? counters).map fun counters =>
        ⟨executionId, stepName, status, exitStatus, counters, startTime, endTime, userData⟩
    | _ => none

instance : RowCells Cell where
  columns := [⟨"obj", .blob, false⟩]
  cells cell := [cell]
  ofCells?
    | [cell] => some cell
    | _ => none

namespace RowCells

variable {ρ : Type} [RowCells ρ]

/-- The cell of a named column. -/
def get? (name : String) (r : ρ) : Option Cell :=
  (((columns ρ).map Column.name).zip (cells r)).lookup name

/-- The row with the cell of a named column replaced. -/
def set? (name : String) (cell : Cell) (r : ρ) : Option ρ := do
  let column ← (columns ρ).find? fun c => c.name = name
  let cell ← column.store? cell
  ofCells? (((columns ρ).zip (cells r)).map fun (c, old) => if c.name = name then cell else old)

end RowCells

end JobLedger
