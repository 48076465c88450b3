import JobLedger.Durable.Error
import JobLedger.Record.Counters
import JobLedger.Time.Timestamp

/-!
# Cells

A table holds cells. Whatever the type of a column, a cell of it may hold any kind of value; reading
a value of another kind than the column is for is a failure of the operation that reads.
-/

namespace JobLedger

open Text

/-- The content of one column of one row. -/
inductive Cell where
  | null
  | int (i : Int)
  /-- A number of double precision that no integer takes the place of. -/
  | real (x : Dyadic)
  | text (s : String)
  | blob (source : Octets)
  deriving DecidableEq

namespace Cell

/-- The rank of a kind of content in the order of cells. -/
def rank : Cell → Nat
  | null => 0
  | int _ => 1
  | real _ => 1
  | text _ => 2
  | blob _ => 3

/-- One string of octets comes before another, or is the same. -/
def octetsLe : Octets → Octets → Bool
  | [], _ => true
  | _ :: _, [] => false
  | a :: as, b :: bs => if a = b then octetsLe as bs else a < b

/-- One cell comes before another, or is the same: nothing before numbers, numbers before text, and
text before octets. -/
def le : Cell → Cell → Bool
  | int i, int j => i ≤ j
  | int i, real y => (i : Dyadic) ≤ y
  | real x, int j => x ≤ (j : Dyadic)
  | real x, real y => x ≤ y
  | text s, text t => octetsLe (octets s.toList) (octets t.toList)
  | blob a, blob b => octetsLe a b
  | a, b => a.rank ≤ b.rank

/-- The content of a column that may be empty. -/
def ofOption {α : Type} (f : α → Cell) : Option α → Cell
  | some a => f a
  | none => null

/-- A moment as it is stored. -/
def time (t : Timestamp) : Cell := int t.millis.toInt

variable (operation : String)

/-- The number in a cell. -/
def readInt : Cell → Except StoreError Int
  | int i => .ok i
  | _ => .error (.failed operation)

/-- The text in a cell. -/
def readText : Cell → Except StoreError String
  | text s => .ok s
  | _ => .error (.failed operation)

/-- The octets in a cell. -/
def readBlob : Cell → Except StoreError Octets
  | blob source => .ok source
  | _ => .error (.failed operation)

/-- The moment in a cell. -/
def readTime (cell : Cell) : Except StoreError Timestamp := do
  let i ← cell.readInt operation
  (Timestamp.ofMillis? i).elim (.error (.failed operation)) .ok

/-- The content of a cell that may be empty. -/
def readOption {α : Type} (read : Cell → Except StoreError α) :
    Cell → Except StoreError (Option α)
  | null => .ok none
  | cell => (read cell).map some

end Cell

end JobLedger
