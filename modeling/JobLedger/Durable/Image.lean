import JobLedger.Durable.Column
import JobLedger.Durable.LedgerFile
import JobLedger.Json.Printer
import JobLedger.Json.Reader

/-!
# Images of ledgers

The octets that stand for a ledger in a file. A ledger that nothing was ever written to has no
octets. Any other image starts with an octet that no text contains, so that a text is never taken
for a ledger, and goes on with the content of the database as JSON.
-/

namespace JobLedger

open Json Text

/-- A number of double precision as its significand and its places behind the binary point. -/
def realForm : Dyadic → Value
  | .zero => .object [("significand", .int 0), ("places", .int 0)]
  | .ofOdd n places _ => .object [("significand", .int n), ("places", .int places)]

instance : JsonForm Cell where
  toJson
    | .null => .null
    | .int i => .int i
    | .real x => realForm x
    | .text s => .text s
    | .blob source => toJson source
  ofJson?
    | .null => some .null
    | .int i => some (.int i)
    | .object [("significand", .int n), ("places", .int places)] =>
      some (.real (Dyadic.ofIntWithPrec n places))
    | .text s => some (.text s)
    | value => (ofJson? value).map .blob

/-- A row as the array of its number and of its cells. -/
def rowForm {ρ : Type} [RowCells ρ] (entry : Int × ρ) : Value :=
  .array (.int entry.1 :: (RowCells.cells entry.2).map toJson)

/-- The row of a given form. -/
def rowOfForm? {ρ : Type} [RowCells ρ] : Value → Option (Int × ρ)
  | .array (.int row :: cells) => do some (row, ← RowCells.ofCells? (← cells.mapM ofJson?))
  | _ => none

instance {ρ : Type} [RowCells ρ] : JsonForm (Table ρ) where
  toJson t := .array [.int t.highWater, .array (t.rows.map rowForm)]
  ofJson?
    | .array [.int highWater, .array rows] => (rows.mapM rowOfForm?).map fun rows => ⟨rows, highWater⟩
    | _ => none

instance : JsonForm (Cell × Cell) where
  toJson entry := .array [toJson entry.1, toJson entry.2]
  ofJson?
    | .array [key, cell] => do some (← ofJson? key, ← ofJson? cell)
    | _ => none

instance : JsonForm Bool where
  toJson := .bool
  ofJson?
    | .bool b => some b
    | _ => none

instance : JsonForm Indexes where
  toJson i := toJson [i.instanceName, i.instanceTag, i.executionOwner, i.stepOwner]
  ofJson? value := do
    match ← (ofJson? value : Option (List Bool)) with
    | [instanceName, instanceTag, executionOwner, stepOwner] =>
      some ⟨instanceName, instanceTag, executionOwner, stepOwner⟩
    | _ => none

instance : JsonForm Database where
  toJson db := .array
    [toJson db.versions, toJson db.instances, toJson db.executions, toJson db.steps,
      toJson db.jobStatuses, toJson db.stepStatuses, toJson db.checkpoints, toJson db.indexes]
  ofJson?
    | .array [versions, instances, executions, steps, jobStatuses, stepStatuses, checkpoints,
        indexes] => do
      some ⟨← ofJson? versions, ← ofJson? instances, ← ofJson? executions, ← ofJson? steps,
        ← ofJson? jobStatuses, ← ofJson? stepStatuses, ← ofJson? checkpoints, ← ofJson? indexes⟩
    | _ => none

namespace LedgerFile

/-- The first octet of an image. -/
def imageMark : UInt8 := 0xFF

/-- The octets of a ledger. -/
def image (f : LedgerFile) : Octets :=
  if f.isBlank then []
  else
    let form := Value.array [.text f.journal.label, toJson f.database]
    imageMark :: octets (form.renderOnto [])

/-- The ledger of given octets. Nobody has it open or locked. -/
def ofImage? : Octets → Option LedgerFile
  | [] => some blank
  | mark :: form =>
    if mark = imageMark then do
      match ← read? form with
      | .array [.text journal, database] =>
        let database : Database ← ofJson? database
        some ⟨database, ← JournalMode.ofLabel? journal, none, false, some database⟩
      | _ => none
    else none

end LedgerFile

end JobLedger
