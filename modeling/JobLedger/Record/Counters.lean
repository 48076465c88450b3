/-!
# Step counters

A step counts eight things. The counters are kept as one record over any type of entry, so that the
counts of a step, the columns that store them and the names they are shown under have one shape.
-/

namespace JobLedger

/-- One entry for each thing that a step counts. -/
structure Counters (α : Type) where
  /-- Items read. -/
  read : α
  /-- Items written. -/
  write : α
  /-- Chunks committed. -/
  commit : α
  /-- Chunks rolled back. -/
  rollback : α
  /-- Items skipped while reading. -/
  readSkip : α
  /-- Items skipped while processing. -/
  processSkip : α
  /-- Items filtered out by the processor. -/
  filter : α
  /-- Items skipped while writing. -/
  writeSkip : α
  deriving DecidableEq, Repr

/-- The counts of a step so far. -/
abbrev StepMetrics := Counters UInt64

namespace Counters

variable {α β γ : Type}

/-- The entries in their fixed order. -/
def toList (c : Counters α) : List α :=
  [c.read, c.write, c.commit, c.rollback, c.readSkip, c.processSkip, c.filter, c.writeSkip]

/-- The record of eight entries given in the fixed order. -/
def ofList? : List α → Option (Counters α)
  | [a, b, c, d, e, f, g, h] => some ⟨a, b, c, d, e, f, g, h⟩
  | _ => none

/-- The record with every entry changed. -/
def map (f : α → β) (c : Counters α) : Counters β :=
  ⟨f c.read, f c.write, f c.commit, f c.rollback, f c.readSkip, f c.processSkip, f c.filter,
    f c.writeSkip⟩

/-- Every entry changed by a function that may refuse; the first refusal in the fixed order
counts. -/
def traverse {m : Type → Type} [Monad m] (f : α → m β) (c : Counters α) : m (Counters β) := do
  let read ← f c.read
  let write ← f c.write
  let commit ← f c.commit
  let rollback ← f c.rollback
  let readSkip ← f c.readSkip
  let processSkip ← f c.processSkip
  let filter ← f c.filter
  let writeSkip ← f c.writeSkip
  pure ⟨read, write, commit, rollback, readSkip, processSkip, filter, writeSkip⟩

/-- Two records put together entry by entry. -/
def zip (a : Counters α) (b : Counters β) : Counters (α × β) :=
  ⟨(a.read, b.read), (a.write, b.write), (a.commit, b.commit), (a.rollback, b.rollback),
    (a.readSkip, b.readSkip), (a.processSkip, b.processSkip), (a.filter, b.filter),
    (a.writeSkip, b.writeSkip)⟩

/-- The record that holds one entry throughout. -/
def const (a : α) : Counters α := ⟨a, a, a, a, a, a, a, a⟩

@[simp] theorem ofList?_toList (c : Counters α) : ofList? c.toList = some c := rfl

@[simp] theorem toList_map (f : α → β) (c : Counters α) : (c.map f).toList = c.toList.map f := rfl

end Counters

/-- The sum of two counts, if it fits in 64 bits. -/
def addCounts? (a b : UInt64) : Option UInt64 :=
  if a.toNat + b.toNat < UInt64.size then some (a + b) else none

namespace StepMetrics

/-- The counts of a step that has done nothing. -/
def zero : StepMetrics := Counters.const 0

/-- Two sets of counts added up, if each of the eight sums fits in 64 bits. -/
def add? (a b : StepMetrics) : Option StepMetrics :=
  (a.zip b).traverse fun (x, y) => addCounts? x y

/-- The sum of many sets of counts, if no partial sum of any of the eight leaves 64 bits. -/
def sum? (rows : List StepMetrics) : Option StepMetrics :=
  rows.foldlM add? zero

end StepMetrics

end JobLedger
