import JobLedger.Durable.Store
import JobLedger.Proofs.Durable.ProgressChanges

/-!
# Stores on a database that holds a ledger

A store in a database serves as long as nobody is in its way. A call on it then ends as the same
call on the ledger in memory does, and in the database of the ledger that this one ends in. It does
not get that far only where its request, or what the ledger would hold then, does not fit into a
database; it fails then, and the database is as it was.
-/

namespace JobLedger

open JobLedger.Action Text

/-- The states `Holds s m` in which a store finds the database of a ledger, and nothing is in the way
of its readers and its writer. -/
structure Serves {σ : Type} [KeepsDatabase σ] (Holds : σ → Memory → Prop) : Prop where
  readable : ∀ {s m}, Holds s m → ∀ operation,
    KeepsDatabase.readable s operation = .ok m.database
  isReady : ∀ {s m}, Holds s m → ∀ operation, KeepsDatabase.isReady s operation = .ok ()
  writable : ∀ {s m}, Holds s m → ∀ operation,
    KeepsDatabase.writable s operation = .ok m.database
  keep : ∀ {s m}, Holds s m → ∀ next : Memory, Holds (KeepsDatabase.keep s next.database) next
  turn : ∀ {s m}, Holds s m → Holds (KeepsDatabase.turn s) m

/-- What a request holds fits into a database: its numbers into columns, its records and its tokens
into blobs. -/
def Call.Fits : Call → Prop
  | .createExecution id parameters _ _ => (id.number : Int) < signedLimit ∧ HasBlob parameters
  | .createStep id _ metrics _ => (id.number : Int) < signedLimit ∧ CountsFit metrics
  | .updateStep id update =>
    (id.number : Int) < signedLimit ∧ CountsFit update.metrics ∧ Frame.Fits update.userData
  | .updateJobStatus status => (status.instanceId.number : Int) < signedLimit ∧ HasBlob status
  | .updateStepStatus status => (status.statusId.number : Int) < signedLimit ∧ HasBlob status
  | .updatePair _ _ pair => Frame.Fits pair.reader ∧ Frame.Fits pair.writer
  | .findInstance id | .tagOfInstance id | .executionsOf id | .latestExecution id | .recentSteps id
  | .createJobStatus id | .findJobStatus id | .findStepStatus id _ =>
    (id.number : Int) < signedLimit
  | .markStarted id _ | .setExecutionStatus id _ _ | .finalizeExecution id _ _ _
  | .findExecution id | .instanceOf id | .parametersOf id | .tagOfExecution id | .stepsOf id
  | .jobStatusOf id => (id.number : Int) < signedLimit
  | .findStep id | .createStepStatus id | .incrementStartCount id => (id.number : Int) < signedLimit
  | _ => True

section Outcomes

variable {σ α : Type} (Holds : σ → Memory → Prop)

/-- An outcome on a store is that of a ledger in memory. -/
structure Agrees (stored : Outcome LedgerError σ α) (kept : Outcome LedgerError Memory α) :
    Prop where
  answer : stored.answer = kept.answer
  state : Holds stored.state kept.state
  storable : kept.state.Storable

/-- An outcome on a store that held a ledger is an error, and the ledger is still there. -/
structure Refuses (stored : Outcome LedgerError σ α) (m : Memory) : Prop where
  answer : ∃ e, stored.answer = .error e
  state : Holds stored.state m

/-- An outcome on a store that held a ledger is that of the ledger, or an error where something does
not fit. -/
def Mirrors (m : Memory) (fits : Prop) (stored : Outcome LedgerError σ α)
    (kept : Outcome LedgerError Memory α) : Prop :=
  Agrees Holds stored kept ∨ Refuses Holds stored m ∧ ¬ (fits ∧ kept.state.Storable)

variable {Holds : σ → Memory → Prop}

namespace Mirrors

variable {s : σ} {m : Memory} {fits : Prop} {kept : Outcome LedgerError Memory α}

/-- What mirrors a ledger may be said in other words. -/
theorem congr {stored stored' : Outcome LedgerError σ α} (h : Mirrors Holds m fits stored kept)
    (hanswer : stored'.answer = stored.answer) (hstate : stored'.state = stored.state) :
    Mirrors Holds m fits stored' kept := by
  rcases h with h | ⟨h, hnot⟩
  · exact .inl ⟨hanswer ▸ h.answer, hstate ▸ h.state, h.storable⟩
  · exact .inr ⟨⟨hanswer ▸ h.answer, hstate ▸ h.state⟩, hnot⟩

variable (hholds : Holds s m)

include hholds

/-- A request that does not fit is refused before anything is done. -/
theorem refused {γ : Type} (e : StoreError) {next : γ → Action StoreError σ α}
    (hfits : ¬ fits) :
    Mirrors Holds m fits (mapError StoreError.toLedger (ofExcept (.error e) >>= next) s) kept :=
  .inr ⟨⟨⟨e.toLedger, rfl⟩, hholds⟩, fun h => hfits h.1⟩

/-- A number that fits a row is looked up; another one is refused, which the requirement excludes.
-/
theorem of_row {entity : Entity} {id : Id entity} {next : Int → Action StoreError σ α}
    (hfits : fits → (id.number : Int) < signedLimit)
    (hnext : Mirrors Holds m fits (mapError StoreError.toLedger (next id.number) s) kept) :
    Mirrors Holds m fits (mapError StoreError.toLedger (ofExcept (rowOf id) >>= next) s) kept := by
  by_cases hid : (id.number : Int) < signedLimit
  · rw [rowOf_of_lt hid]
    exact hnext
  · rw [rowOf_of_not_lt hid]
    exact refused hholds _ fun h => hid (hfits h)

/-- A record that fits a frame is stored; another one is refused, which the requirement excludes. -/
theorem of_blob {γ : Type} [JsonForm γ] {sort : String} {value : γ}
    {next : Octets → Action StoreError σ α} (hfits : fits → HasBlob value)
    (hnext : HasBlob value →
      Mirrors Holds m fits (mapError StoreError.toLedger (next (blob value)) s) kept) :
    Mirrors Holds m fits
      (mapError StoreError.toLedger (ofExcept (blobOf (Codec.json γ) sort value) >>= next) s)
      kept := by
  by_cases hvalue : HasBlob value
  · rw [blobOf_of_hasBlob hvalue]
    exact hnext hvalue
  · rw [blobOf_of_not_hasBlob hvalue]
    exact refused hholds _ fun h => hvalue (hfits h)

/-- A token that fits a frame is stored; another one is refused, which the requirement excludes. -/
theorem of_token {token : Option Octets} {next : Octets → Action StoreError σ α}
    (hfits : fits → Frame.Fits token)
    (hnext : Frame.Fits token →
      Mirrors Holds m fits (mapError StoreError.toLedger (next (Frame.framed token)) s) kept) :
    Mirrors Holds m fits (mapError StoreError.toLedger (ofExcept (tokenBlob token) >>= next) s)
      kept := by
  by_cases htoken : Frame.Fits token
  · rw [tokenBlob_of_fits htoken]
    exact hnext htoken
  · rw [tokenBlob_of_not_fits htoken]
    exact refused hholds _ fun h => htoken (hfits h)

/-- Counters that fit their cells are stored; others are refused, which the requirement excludes. -/
theorem of_counts {metrics : StepMetrics}
    {next : Counters Cell → Action StoreError σ α} (hfits : fits → CountsFit metrics)
    (hnext : Mirrors Holds m fits (mapError StoreError.toLedger (next (countCells metrics)) s) kept) :
    Mirrors Holds m fits (mapError StoreError.toLedger (ofExcept (counterCells metrics) >>= next) s)
      kept := by
  cases hcells : counterCells metrics with
  | ok cells =>
    have hfit := counterCells_of_fit (countsFit_of_counterCells hcells)
    rw [hcells] at hfit
    obtain rfl := Except.ok.inj hfit
    exact hnext
  | error e =>
    refine refused hholds _ fun h => ?_
    rw [counterCells_of_fit (hfits h)] at hcells
    exact nomatch hcells

end Mirrors

end Outcomes

namespace Serves

variable {σ α β : Type} [KeepsDatabase σ] {Holds : σ → Memory → Prop} (hserves : Serves Holds)
  {s : σ} {m : Memory} {fits : Prop}

include hserves

/-- A reader of a state that holds a ledger finds the database of that ledger. -/
theorem read_apply (hholds : Holds s m) (operation : String)
    (query : Database → Except StoreError α) :
    Database.read operation query s = ⟨query m.database, KeepsDatabase.turn s, []⟩ := by
  rw [Database.read, Database.takeTurn, hserves.readable hholds, ok_bind]

/-- A change of the database is kept. -/
theorem write_ok {db : Database} (hholds : Holds s m) {operation : String}
    {update : Database → Except StoreError (α × Database)} {a : α}
    (hupdate : update m.database = .ok (a, db)) :
    Database.write operation update s = ⟨.ok a, KeepsDatabase.keep s db, []⟩ := by
  refine change_ok ?_
  rw [hserves.writable hholds, ok_bind, hupdate]
  rfl

/-- A change that fails is not kept. -/
theorem write_error (hholds : Holds s m) {operation : String}
    {update : Database → Except StoreError (α × Database)} {e : StoreError}
    (hupdate : update m.database = .error e) :
    Database.write operation update s = ⟨.error e, s, []⟩ := by
  refine change_error ?_
  rw [hserves.writable hholds, ok_bind, hupdate]
  rfl

section Mirrored

variable (hs : m.Storable) (hholds : Holds s m)

include hs hholds

/-- A query gives the answer of the ledger. -/
theorem mirrors_read {operation : String} {query : Database → Except StoreError α}
    {f : Memory → Except LedgerError α} (hquery : SameAnswer (query m.database) (f m)) :
    Mirrors Holds m fits (mapError StoreError.toLedger (Database.read operation query) s)
      (look f m) := by
  rw [mapError, hserves.read_apply hholds]
  exact .inl ⟨hquery, hserves.turn hholds, hs⟩

/-- A query for one row answers as the ledger does, as far as its number fits. -/
theorem mirrors_readRow {entity : Entity} {id : Id entity} {operation : String}
    {query : Int → Database → Except StoreError α} {f : Memory → Except LedgerError α}
    (hfits : fits → (id.number : Int) < signedLimit)
    (hquery : SameAnswer (query id.number m.database) (f m)) :
    Mirrors Holds m fits (mapError StoreError.toLedger (Database.readRow operation id query) s)
      (look f m) :=
  .of_row hholds hfits (hserves.mirrors_read hs hholds hquery)

/-- A change ends as that of the ledger that it follows. -/
theorem mirrors_write {operation : String}
    {update : Database → Except StoreError (α × Database)}
    {f : Memory → Except LedgerError (α × Memory)} (hf : Follows (update m.database) (f m)) :
    Mirrors Holds m fits (mapError StoreError.toLedger (Database.write operation update) s)
      (change f m) := by
  generalize hupdate : update m.database = stored at hf
  generalize hchange : f m = kept at hf
  cases hf with
  | ok hnext =>
    rw [mapError, hserves.write_ok hholds hupdate, change_ok hchange]
    exact .inl ⟨rfl, hserves.keep hholds _, hnext⟩
  | error =>
    rw [mapError, hserves.write_error hholds hupdate, change_error hchange]
    exact .inl ⟨rfl, hholds, hs⟩
  | full hnext =>
    rw [mapError, hserves.write_error hholds hupdate, change_ok hchange]
    exact .inr ⟨⟨⟨_, rfl⟩, hholds⟩, fun hfits => hnext hfits.2⟩

/-- A change is followed by reports and by an answer made of its own. -/
theorem mirrors_write_tail {operation : String}
    {update : Database → Except StoreError (β × Database)} {tail : β → Action StoreError σ α}
    {k : β → α} (htail : ∀ b t, (tail b t).answer = .ok (k b) ∧ (tail b t).state = t)
    {f : Memory → Except LedgerError (α × Memory)}
    (hf : Follows ((update m.database).map fun result => (k result.1, result.2)) (f m)) :
    Mirrors Holds m fits
      (mapError StoreError.toLedger (Database.write operation update >>= tail) s)
      (change f m) := by
  let mapped (db : Database) := (update db).map fun result => (k result.1, result.2)
  have hmapped : Mirrors Holds m fits
      (mapError StoreError.toLedger (Database.write operation mapped) s) (change f m) :=
    hserves.mirrors_write hs hholds hf
  rw [mapError] at hmapped ⊢
  cases hupdate : update m.database with
  | error e =>
    have hwrite : Database.write operation update s = ⟨.error e, s, []⟩ :=
      hserves.write_error hholds hupdate
    have hwrite' : Database.write operation mapped s = ⟨.error e, s, []⟩ :=
      hserves.write_error hholds (congrArg (Except.map _) hupdate)
    obtain ⟨hanswer, hstate⟩ := bind_error (congrArg Outcome.answer hwrite) tail
    rw [hwrite] at hstate
    rw [hwrite'] at hmapped
    exact hmapped.congr (congrArg (Except.mapError StoreError.toLedger) hanswer) hstate
  | ok result =>
    have hwrite : Database.write operation update s =
        ⟨.ok result.1, KeepsDatabase.keep s result.2, []⟩ :=
      hserves.write_ok hholds hupdate
    have hwrite' : Database.write operation mapped s =
        ⟨.ok (k result.1), KeepsDatabase.keep s result.2, []⟩ :=
      hserves.write_ok hholds (congrArg (Except.map _) hupdate)
    obtain ⟨hanswer, hstate⟩ := bind_ok (congrArg Outcome.answer hwrite) tail
    rw [hwrite] at hanswer hstate
    rw [hwrite'] at hmapped
    exact hmapped.congr
      (congrArg (Except.mapError StoreError.toLedger) (hanswer.trans (htail _ _).1))
      (hstate.trans (htail _ _).2)

/-- A change whose answer goes on unchanged. -/
theorem mirrors_write_same {operation : String}
    {update : Database → Except StoreError (α × Database)} {tail : α → Action StoreError σ α}
    (htail : ∀ a t, (tail a t).answer = .ok a ∧ (tail a t).state = t)
    {f : Memory → Except LedgerError (α × Memory)} (hf : Follows (update m.database) (f m)) :
    Mirrors Holds m fits
      (mapError StoreError.toLedger (Database.write operation update >>= tail) s)
      (change f m) := by
  have hmap : (update m.database).map (fun result => (result.1, result.2)) = update m.database := by
    cases update m.database <;> rfl
  have hsame : Follows ((update m.database).map fun result => (result.1, result.2)) (f m) := by
    rw [hmap]
    exact hf
  exact hserves.mirrors_write_tail hs hholds htail hsame

end Mirrored

end Serves

end JobLedger
