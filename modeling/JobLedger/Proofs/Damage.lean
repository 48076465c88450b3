import JobLedger.Proofs.Durable.Reading
import JobLedger.Proofs.Files.Carrying

/-!
# Damaged rows are never given as records

Whatever the columns of a database hold, a call that looks for one record gives it only if every
column that it is made of holds it. A row that is there but holds no record gives an error: it is
never passed over, and nothing is filled in for it. What is held in full is found.
-/

namespace JobLedger

open JobLedger.Action Text

/-- An answer shows what is held, and errors keep it from doing so only as long as something is in
the way. -/
structure Shows {α : Type} (answer : Except LedgerError (Option α)) (isOpen lacks : Prop)
    (holds : α → Prop) : Prop where
  /-- A record is given only if it is held. -/
  holds_of_some : ∀ a, answer = .ok (some a) → holds a
  /-- Nothing is found only where there is nothing. -/
  lacks_of_none : answer = .ok none → lacks
  /-- What is there but holds no record gives an error. -/
  error_of_damaged : ¬ lacks → (∀ a, ¬ holds a) → ∃ e, answer = .error e
  /-- What is held is found. -/
  some_of_holds : isOpen → ∀ a, holds a → answer = .ok (some a)

/-- An answer is the result of a query, or an error that has come before it, which there is none of
as long as nothing is in the way. -/
structure AnswersBy {α : Type} (answer : Except LedgerError α) (isOpen : Prop)
    (result : Except StoreError α) : Prop where
  eq_or_error : answer = result.mapError StoreError.toLedger ∨ ∃ e, answer = .error e
  eq_of_open : isOpen → answer = result.mapError StoreError.toLedger

namespace AnswersBy

variable {α : Type} {isOpen : Prop}

/-- An answer by a query may be put in another form. -/
theorem map {β : Type} {answer : Except LedgerError α} {result : Except StoreError α}
    (h : AnswersBy answer isOpen result) (f : α → β) :
    AnswersBy (answer.map f) isOpen (result.map f) := by
  have hmap : (result.mapError StoreError.toLedger).map f =
      (result.map f).mapError StoreError.toLedger := by
    cases result <;> rfl
  refine ⟨?_, fun hopen => (congrArg (Except.map f) (h.eq_of_open hopen)).trans hmap⟩
  obtain hanswer | ⟨e, he⟩ := h.eq_or_error
  · exact .inl ((congrArg (Except.map f) hanswer).trans hmap)
  · exact .inr ⟨e, congrArg (Except.map f) he⟩

/-- The answer by a query that reads what is held shows it. -/
theorem shows {answer : Except LedgerError (Option α)} {result : Except StoreError (Option α)}
    {lacks : Prop} {holds : α → Prop} (h : AnswersBy answer isOpen result)
    (hreads : Database.Reads result lacks holds) : Shows answer isOpen lacks holds := by
  have hok {found : Option α} (hanswer : answer = .ok found) : result = .ok found := by
    obtain heq | ⟨e, he⟩ := h.eq_or_error
    · exact eq_ok_of_mapError (heq.symm.trans hanswer)
    · exact nomatch he.symm.trans hanswer
  have hsome (a : α) (hanswer : answer = .ok (some a)) : holds a :=
    (hreads.holds_iff a).mp (hok hanswer)
  have hnone (hanswer : answer = .ok none) : lacks := hreads.lacks_of_none (hok hanswer)
  refine ⟨hsome, hnone, fun hthere hdamaged => ?_, fun hopen a ha => ?_⟩
  · cases hanswer : answer with
    | error e => exact ⟨e, rfl⟩
    | ok found =>
      cases found with
      | none => exact absurd (hnone hanswer) hthere
      | some a => exact absurd (hsome a hanswer) (hdamaged a)
  · rw [h.eq_of_open hopen, (hreads.holds_iff a).mpr ha]
    rfl

end AnswersBy

namespace Database

variable {σ : Type} [KeepsDatabase σ] {α : Type}

/-- A reader that answers finds the database, or one that nothing was ever written to. -/
def FoundIn (db : Database) (s : σ) : Prop :=
  ∀ operation found, KeepsDatabase.readable s operation = .ok found → found = db ∨ found = .blank

/-- Nothing is in the way of the next reader. -/
def OpenIn (db : Database) (s : σ) : Prop :=
  ∀ operation, KeepsDatabase.readable s operation = .ok db

/-- Nothing is in the way of the next reader, and an identifier has a row number. -/
def OpenAt {entity : Entity} (db : Database) (s : σ) (id : Id entity) : Prop :=
  (id.number : Int) < signedLimit ∧ db.OpenIn s

/-- What a call answers is what is stored for it. -/
theorem answer_perform {call : Call} (hensure : ensureCall (σ := σ) call = answer ()) (s : σ) :
    (perform call s).answer = (mapError StoreError.toLedger (performStored call) s).answer := by
  have hperform : perform call s = (do
      ensureCall call
      mapError StoreError.toLedger (performStored call) : Action LedgerError σ call.Answer) s := rfl
  rw [hperform, hensure]
  rfl

section Answers

variable {db : Database} {s : σ} (h : db.FoundIn s)

include h

/-- A read answers by its query of the database that readers find. -/
theorem answersBy_read {operation : String} {query : Database → Except StoreError α}
    (hblank : ∃ e, query .blank = .error e) :
    AnswersBy (mapError StoreError.toLedger (read operation query) s).answer (db.OpenIn s)
      (query db) := by
  have hanswer : (mapError StoreError.toLedger (read operation query) s).answer =
      (KeepsDatabase.readable s operation >>= query).mapError StoreError.toLedger := rfl
  rw [hanswer]
  refine ⟨?_, fun hopen => by rw [hopen operation]; rfl⟩
  cases hfound : KeepsDatabase.readable s operation with
  | error e => exact .inr ⟨_, rfl⟩
  | ok found =>
    obtain rfl | rfl := h operation found hfound
    · exact .inl rfl
    · obtain ⟨e, he⟩ := hblank
      rw [ok_bind, he]
      exact .inr ⟨_, rfl⟩

/-- A read of one row answers by its query of the database that readers find. -/
theorem answersBy_readRow {entity : Entity} {operation : String} {id : Id entity}
    {query : Int → Database → Except StoreError α}
    (hblank : ∃ e, query id.number .blank = .error e) :
    AnswersBy (mapError StoreError.toLedger (readRow operation id query) s).answer (db.OpenAt s id)
      (query id.number db) := by
  by_cases hrow : (id.number : Int) < signedLimit
  · have hsame : (mapError StoreError.toLedger (readRow operation id query) s).answer =
        (mapError StoreError.toLedger (read operation (query id.number)) s).answer := by
      rw [readRow, rowOf_of_lt hrow]
      rfl
    have hread := @answersBy_read _ _ _ _ _ h operation (query id.number) hblank
    rw [hsame]
    exact ⟨hread.eq_or_error, fun hopen => hread.eq_of_open hopen.2⟩
  · have hfails : ∃ e,
        (mapError StoreError.toLedger (readRow operation id query) s).answer = .error e := by
      rw [readRow, rowOf_of_not_lt hrow]
      exact ⟨_, rfl⟩
    exact ⟨.inr hfails, fun hopen => absurd hopen.1 hrow⟩

end Answers

/-- The calls that look for one record show what a database holds of it. -/
structure ShownBy (db : Database) (s : σ) : Prop where
  jobStatus : ∀ id, Shows (perform (.findJobStatus id) s).answer (db.OpenAt s id)
    (db.jobStatus? id.number = none)
    fun status => ∃ cell, db.jobStatus? id.number = some cell ∧ cell.HoldsValue status ∧
      status.instanceId = id
  jobStatusOf : ∀ id, Shows (perform (.jobStatusOf id) s).answer (db.OpenAt s id)
    (∃ r owner, db.execution? id.number = some r ∧ r.instanceId = .int owner ∧
      db.jobStatus? owner = none)
    fun status => ∃ r, db.execution? id.number = some r ∧
      r.instanceId = .int status.instanceId.number ∧
        ∃ cell, db.jobStatus? status.instanceId.number = some cell ∧ cell.HoldsValue status
  stepStatus : ∀ id step, Shows (perform (.findStepStatus id step) s).answer (db.OpenAt s id)
    (∀ row, db.RunsStep id.number step row → db.stepStatus? row = none)
    fun status => ∃ cell, db.KeepsFirst id.number step status.statusId.number cell ∧
      cell.HoldsValue status
  pair : ∀ id step, Shows (perform (.findPair id step) s).answer (db.OpenIn s)
    (∀ kind, db.checkpoint? (.ofPair id step kind) = none)
    fun pair => ∀ kind, ∃ cell, db.checkpoint? (.ofPair id step kind) = some cell ∧
      cell.HoldsToken (pair.token kind)
  execution : ∀ id, Shows (perform (.findExecution id) s).answer (db.OpenAt s id)
    (db.execution? id.number = none)
    fun e => e.id = id ∧ ∃ r i, db.execution? id.number = some r ∧
      db.instance? e.instanceId.number = some i ∧ r.Holds i e
  /-- An execution always has parameters. -/
  parameters : ∀ id, Shows ((perform (.parametersOf id) s).answer.map some) (db.OpenAt s id) False
    fun parameters => ∃ r, db.execution? id.number = some r ∧ r.parameters.HoldsValue parameters
  step : ∀ id, Shows (perform (.findStep id) s).answer (db.OpenAt s id)
    (db.step? id.number = none)
    fun step => step.id = id ∧ ∃ r, db.step? id.number = some r ∧ r.Holds step

/-- A session on an intact database shows a record only if the columns of it can all be read. -/
theorem shownBy {db : Database} {s : σ} (h : db.Intact) (hfound : db.FoundIn s) :
    db.ShownBy s where
  jobStatus id := by
    rw [answer_perform rfl]
    refine (answersBy_readRow hfound ⟨_, rfl⟩).shows
      ((reads_jobStatus h id.number).congr (fun hnone => hnone) fun status => ?_)
    simp only [number_inj]
  jobStatusOf id := by
    rw [answer_perform rfl]
    exact (answersBy_readRow hfound ⟨_, rfl⟩).shows (reads_jobStatusOf h id id.number)
  stepStatus id step := by
    rw [answer_perform rfl]
    refine (answersBy_readRow hfound ⟨_, rfl⟩).shows
      ((reads_stepStatus h id.number step).congr (fun hnone => hnone) fun status => ?_)
    constructor
    · rintro ⟨_, cell, hkeeps, hvalue, rfl⟩
      exact ⟨cell, hkeeps, hvalue⟩
    · rintro ⟨cell, hkeeps, hvalue⟩
      exact ⟨_, cell, hkeeps, hvalue, rfl⟩
  pair id step := by
    rw [answer_perform rfl]
    exact (answersBy_read hfound ⟨_, rfl⟩).shows (reads_pair id step)
  execution id := by
    rw [answer_perform rfl]
    refine (answersBy_readRow hfound ⟨_, rfl⟩).shows
      ((reads_execution h id.number).congr (fun hnone => hnone) fun e => ?_)
    constructor
    · rintro ⟨r, hr, i, hi, hid, hholds⟩
      exact ⟨(number_inj.mp hid).symm, r, i, hr, hi, hholds⟩
    · rintro ⟨rfl, r, i, hr, hi, hholds⟩
      exact ⟨r, hr, i, hi, rfl, hholds⟩
  parameters id := by
    rw [answer_perform rfl]
    exact ((answersBy_readRow hfound ⟨_, rfl⟩).map some).shows (reads_parameters id id.number)
  step id := by
    rw [answer_perform rfl]
    refine (answersBy_readRow hfound ⟨_, rfl⟩).shows
      ((reads_step h id.number).congr (fun hnone => hnone) fun step => ?_)
    constructor
    · rintro ⟨r, hr, hid, hholds⟩
      exact ⟨(number_inj.mp hid).symm, r, hr, hholds⟩
    · rintro ⟨rfl, r, hr, hholds⟩
      exact ⟨r, hr, rfl, hholds⟩

end Database

/-- A session finds its database, except for one of its own, of which readers see nothing. -/
theorem OpenLedger.foundIn (l : OpenLedger) : l.database.FoundIn l := by
  intro operation found hfound
  obtain ⟨-, -, hsession⟩ := bind_eq_ok_iff.mp hfound
  rw [OpenLedger.database]
  cases hl : l.session with
  | ledger home mayWrite readers =>
    rw [hl] at hsession
    exact .inl (Except.ok.inj hsession).symm
  | own db =>
    rw [hl] at hsession
    exact .inr (Except.ok.inj hsession).symm
  | fixed db =>
    rw [hl] at hsession
    exact .inl (Except.ok.inj hsession).symm

/-- Every session shows what its database holds, whatever there is in the columns. -/
theorem shownBy_everySession (l : OpenLedger) (h : l.database.Intact) : l.database.ShownBy l :=
  Database.shownBy h l.foundIn

/-- In a table of one row, that row is found, and no other. -/
theorem Table.find?_singleton_eq_some_iff {ρ : Type} {row n : Int} {r s : ρ} {highWater : Int} :
    ((some (Table.mk [(row, r)] highWater)).bind fun t => t.find? n) = some s ↔
      n = row ∧ r = s := by
  by_cases h : n = row
  · simp [find?, h]
  · have hne : (n == row) = false := by simpa using h
    simp [find?, List.lookup_cons, hne, h]

/-- A table of one row is in order. -/
theorem Table.ordered_singleton {ρ : Type} {row : Int} {r : ρ} {highWater : Int}
    (h : FitsSigned row) : (Table.mk [(row, r)] highWater).Ordered := by
  refine ⟨List.pairwise_singleton _ _, fun entry hentry => ?_⟩
  obtain rfl := List.mem_singleton.mp hentry
  exact h

/-- A file in which most of what is kept for an execution is damaged: its status is none, the status
record of its instance is cut off, and of a pair of tokens one is left. -/
def damagedFile : OpenLedger where
  files := .start
  session := .fixed {
    versions := some [.int schemaVersion]
    instances := some ⟨[(1, ⟨.text "load", .text "nightly", .null⟩)], 1⟩
    executions := some ⟨[(1, ⟨.int 1, .int 0, .null, .null, .int 0, .text "LOST", .null,
      .blob (blob JobParameters.empty)⟩)], 1⟩
    steps := some ⟨[(1, ⟨.int 1, .text "copy", .text "STARTING", .null, .const (.int 0), .int 0, .null,
      .blob (Frame.framed none)⟩)], 1⟩
    jobStatuses := some ⟨[(1, .blob [66, 76, 71, 82])], 0⟩
    stepStatuses := some ⟨[(1, Memory.recordCell (StepStatus.fresh ⟨1, by decide, by decide⟩))], 0⟩
    checkpoints := some [(.text "1,copy,READER", .blob (Frame.framed none))]
    indexes := ⟨true, true, true, true⟩ }

/-- The damaged file is intact but for what its cells hold. -/
theorem intact_damagedFile : damagedFile.database.Intact where
  owned row r hr := by
    obtain ⟨-, rfl⟩ := Table.find?_singleton_eq_some_iff.mp hr
    exact ⟨1, _, rfl, rfl⟩
  counters_fit row r hr i hi := by
    obtain ⟨-, rfl⟩ := Table.find?_singleton_eq_some_iff.mp hr
    have hzero : i = 0 := by simpa [Counters.const, Counters.toList] using hi
    rw [hzero]
    decide
  steps_ordered t ht := by
    cases ht
    exact Table.ordered_singleton (by decide)
  jobStatuses_ordered t ht := by
    cases ht
    exact Table.ordered_singleton (by decide)
  stepStatuses_ordered t ht := by
    cases ht
    exact Table.ordered_singleton (by decide)

/-- Of a damaged file the status record of the step is found, and what is damaged gives errors. -/
theorem shownBy_damagedFile :
    let id : InstanceId := ⟨1, by decide, by decide⟩
    let execution : ExecutionId := ⟨1, by decide, by decide⟩
    let step : StepId := ⟨1, by decide, by decide⟩
    damagedFile.database.Intact ∧
      (∃ e, (perform (.findExecution execution) damagedFile).answer = .error e) ∧
      (∃ e, (perform (.findJobStatus id) damagedFile).answer = .error e) ∧
      (∃ e, (perform (.findPair id "copy") damagedFile).answer = .error e) ∧
      (perform (.findStepStatus id "copy") damagedFile).answer = .ok (some (.fresh step)) := by
  intro id execution step
  have hshown := shownBy_everySession damagedFile intact_damagedFile
  refine ⟨intact_damagedFile, ?_, ?_, ?_, ?_⟩
  · refine (hshown.execution execution).error_of_damaged nofun ?_
    rintro e ⟨-, r, i, hr, -, hholds⟩
    obtain rfl := Option.some.inj hr
    have hlabel := Cell.text.inj hholds.status
    cases hstatus : e.status <;> exact absurd (hstatus ▸ hlabel) (by decide)
  · refine (hshown.jobStatus id).error_of_damaged nofun ?_
    rintro status ⟨cell, hcell, ⟨source, ⟨frame, hframe, hencode⟩, -⟩, -⟩
    obtain rfl := Option.some.inj hcell
    obtain rfl := Cell.blob.inj hframe
    exact nomatch Frame.decode_eq_ok_iff.mpr hencode
  · refine (hshown.pair id "copy").error_of_damaged (fun hnone => ?_) fun pair hholds => ?_
    · have hreader : damagedFile.database.checkpoint? (.ofPair id "copy" .reader) =
          some (.blob (Frame.framed none)) := by decide
      exact nomatch hreader.symm.trans (hnone .reader)
    · have hwriter : damagedFile.database.checkpoint? (.ofPair id "copy" .writer) = none := by
        decide
      obtain ⟨cell, hcell, -⟩ := hholds .writer
      exact nomatch hwriter.symm.trans hcell
  · refine (hshown.stepStatus id "copy").some_of_holds ⟨by decide, fun _ => rfl⟩ _ ?_
    refine ⟨_, ⟨⟨_, 1, _, rfl, rfl, rfl, rfl, rfl⟩, rfl, fun n hn _ => ?_⟩,
      holdsValue_recordCell (hasBlob_fresh_stepStatus step)⟩
    refine Option.eq_none_iff_forall_ne_some.mpr fun cell hcell => ?_
    exact absurd (Table.find?_singleton_eq_some_iff.mp hcell).1 (Int.ne_of_lt hn)

end JobLedger
