/-!
# Identifiers

Job instances, job executions and step executions are numbered by the store, each kind on its own,
from one upwards. An identifier is such a number; it fits in 64 bits.
-/

namespace JobLedger

/-- What an identifier identifies. -/
inductive Entity where
  | jobInstance
  | jobExecution
  | stepExecution
  deriving DecidableEq, Repr

/-- The number of a record of one kind: positive, and of 64 bits. -/
structure Id (entity : Entity) where
  /-- The number itself. -/
  number : Nat
  /-- Numbering starts at one. -/
  pos : 0 < number
  /-- Numbers fit in 64 bits. -/
  lt : number < UInt64.size
  deriving DecidableEq, Repr

/-- The identity of one logical job submission. -/
abbrev InstanceId := Id .jobInstance

/-- The identity of one run of a job instance. -/
abbrev ExecutionId := Id .jobExecution

/-- The identity of one run of one step. -/
abbrev StepId := Id .stepExecution

namespace Id

variable {entity : Entity}

/-- The identifier with a given number, if the number is one of an identifier. -/
def ofNat? (n : Nat) : Option (Id entity) :=
  if h : 0 < n ∧ n < UInt64.size then some ⟨n, h.1, h.2⟩ else none

/-- Identifiers of one kind are in the order of their numbers. -/
instance : LT (Id entity) := ⟨fun a b => a.number < b.number⟩

instance : DecidableLT (Id entity) := fun a b => inferInstanceAs (Decidable (a.number < b.number))

/-- The decimal numeral of an identifier. -/
def text (id : Id entity) : String := id.number.repr

@[ext]
theorem ext {a b : Id entity} (h : a.number = b.number) : a = b := by
  cases a; cases b; simp_all

theorem ofNat?_number (id : Id entity) : ofNat? id.number = some id := by
  rw [ofNat?, dif_pos ⟨id.pos, id.lt⟩]

theorem ofNat?_eq_some_iff {n : Nat} {id : Id entity} : ofNat? n = some id ↔ id.number = n := by
  constructor
  · intro h
    unfold ofNat? at h
    split at h
    · cases h; rfl
    · cases h
  · rintro rfl
    exact ofNat?_number id

end Id

end JobLedger
