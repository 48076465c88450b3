import JobLedger.Word

/-!
# Tables with numbered rows

The rows of a table stand in the order of their numbers, which are 64-bit integers. A table that
numbers its rows itself remembers the highest number it has given out and goes on behind it, so that
the number of a row that was removed is not given out again.
-/

namespace JobLedger

/-- A table of rows. -/
structure Table (ρ : Type) where
  /-- Rows with their numbers, in the order of the numbers. -/
  rows : List (Int × ρ)
  /-- The highest number given to a row so far. -/
  highWater : Int
  deriving DecidableEq

namespace Table

variable {ρ : Type}

/-- The largest number of a row. -/
def lastRow : Int := signedLimit - 1

/-- The table without rows. -/
def empty : Table ρ := ⟨[], 0⟩

variable (t : Table ρ)

/-- The row of a number. -/
def find? (row : Int) : Option ρ := t.rows.lookup row

/-- The number that the next row gets, as long as there is one. -/
def nextRow? : Option Int :=
  let top := t.rows.foldl (fun top entry => max top entry.1) t.highWater
  if top < lastRow then some (top + 1) else none

/-- The rows with one more at its place. -/
def place (row : Int) (r : ρ) : List (Int × ρ) → List (Int × ρ)
  | [] => [(row, r)]
  | (n, s) :: rest => if row < n then (row, r) :: (n, s) :: rest else (n, s) :: place row r rest

/-- The table with a row added under a number of its own. -/
def put (row : Int) (r : ρ) : Table ρ := { t with rows := place row r t.rows }

/-- The table with a row added under the number that the table gives it. -/
def append (row : Int) (r : ρ) : Table ρ := ⟨t.rows ++ [(row, r)], row⟩

/-- The table with one row changed. -/
def modify (row : Int) (f : ρ → ρ) : Table ρ :=
  { t with rows := t.rows.map fun entry => if entry.1 = row then (entry.1, f entry.2) else entry }

/-- The table without the rows that satisfy a condition. -/
def remove (goes : Int → ρ → Bool) : Table ρ :=
  { t with rows := t.rows.filter fun entry => !goes entry.1 entry.2 }

end Table

end JobLedger
