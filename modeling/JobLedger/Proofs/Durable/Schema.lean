import JobLedger.Durable.LedgerFile
import JobLedger.Proofs.Action

/-!
# Completing a schema

What completing a schema does is told by what creating one missing object does: the object is there
afterwards, the others are there if they were, and no table that was there is touched. The version
that is recorded in a database is never changed.
-/

namespace JobLedger

open JobLedger.Action

namespace SchemaObject

/-- Creating an object takes none away. -/
theorem isIn_addTo_of_isIn {db : Database} {o : SchemaObject} (h : o.isIn db = true)
    (p : SchemaObject) : o.isIn (p.addTo db) = true := by
  by_cases hsame : o = p
  · rw [hsame]
    exact isIn_addTo db p
  · cases p <;> cases o <;> first | exact absurd rfl hsame | exact h

/-- Adding an object of the schema records no version. -/
theorem versions_addTo (db : Database) (o : SchemaObject) : (o.addTo db).versions = db.versions := by
  cases o <;> rfl

end SchemaObject

namespace Database

/-- Two databases have the same six tables, where one that is missing counts as an empty one. -/
structure SameTables (db next : Database) : Prop where
  instances : db.instances.getD .empty = next.instances.getD .empty
  executions : db.executions.getD .empty = next.executions.getD .empty
  steps : db.steps.getD .empty = next.steps.getD .empty
  jobStatuses : db.jobStatuses.getD .empty = next.jobStatuses.getD .empty
  stepStatuses : db.stepStatuses.getD .empty = next.stepStatuses.getD .empty
  checkpoints : db.checkpoints.getD [] = next.checkpoints.getD []

/-- The version of its schema that a database has recorded. -/
def recordedVersion? (db : Database) : Option Int :=
  match db.versions with
  | some (.int version :: _) => some version
  | _ => none

/-- A database has all tables and indexes, and they are of the version that is known. -/
structure IsComplete (db : Database) : Prop where
  isIn : ∀ o : SchemaObject, o.isIn db = true
  version : db.recordedVersion? = some schemaVersion

variable {db next : Database} {obstacle : Option Obstacle}

theorem SameTables.refl (db : Database) : SameTables db db := ⟨rfl, rfl, rfl, rfl, rfl, rfl⟩

theorem SameTables.trans {last : Database} (h : SameTables db next) (h' : SameTables next last) :
    SameTables db last :=
  ⟨h.instances.trans h'.instances, h.executions.trans h'.executions, h.steps.trans h'.steps,
    h.jobStatuses.trans h'.jobStatuses, h.stepStatuses.trans h'.stepStatuses,
    h.checkpoints.trans h'.checkpoints⟩

/-- An object that was missing is created without rows. -/
theorem sameTables_addTo {o : SchemaObject} (h : o.isIn db = false) :
    SameTables db (o.addTo db) := by
  have hnone {α : Type} {table : Option α} (hmissing : table.isSome = false) (rows : α) :
      table.getD rows = rows := by
    rw [Option.isSome_eq_false_iff.mp hmissing |> Option.isNone_iff_eq_none.mp]
    rfl
  cases o
  case instances => exact ⟨hnone h _, rfl, rfl, rfl, rfl, rfl⟩
  case executions => exact ⟨rfl, hnone h _, rfl, rfl, rfl, rfl⟩
  case steps => exact ⟨rfl, rfl, hnone h _, rfl, rfl, rfl⟩
  case jobStatuses => exact ⟨rfl, rfl, rfl, hnone h _, rfl, rfl⟩
  case stepStatuses => exact ⟨rfl, rfl, rfl, rfl, hnone h _, rfl⟩
  case checkpoints => exact ⟨rfl, rfl, rfl, rfl, rfl, hnone h _⟩
  all_goals exact ⟨rfl, rfl, rfl, rfl, rfl, rfl⟩

section CreateMissing

variable {objects created : List SchemaObject}

/-- What it means to create the missing ones of several objects. -/
theorem createMissing_eq_ok (h : createMissing obstacle objects db = .ok (created, next)) :
    SameTables db next ∧ next.versions = db.versions ∧
      (∀ o : SchemaObject, o.isIn db = true → o.isIn next = true) ∧
      ∀ o ∈ objects, o.isIn next = true := by
  induction objects generalizing db created with
  | nil =>
    obtain ⟨-, rfl⟩ := Prod.mk.inj (Except.ok.inj h)
    exact ⟨.refl db, rfl, fun _ hin => hin, nofun⟩
  | cons o rest ih =>
    rw [createMissing] at h
    by_cases hin : o.isIn db = true
    · rw [if_pos hin] at h
      obtain ⟨hsame, hversions, hstays, hall⟩ := ih h
      exact ⟨hsame, hversions, hstays, List.forall_mem_cons.mpr ⟨hstays o hin, hall⟩⟩
    · rw [if_neg hin] at h
      obtain ⟨middle, hstatement, h⟩ := bind_eq_ok_iff.mp h
      obtain rfl : o.addTo db = middle := by
        cases obstacle with
        | none => exact Except.ok.inj hstatement
        | some _ => exact nomatch hstatement
      obtain ⟨⟨made, last⟩, hrest, hdone⟩ := bind_eq_ok_iff.mp h
      obtain ⟨-, rfl⟩ := Prod.mk.inj (Except.ok.inj hdone)
      obtain ⟨hsame, hversions, hstays, hall⟩ := ih hrest
      exact ⟨(sameTables_addTo (eq_false_of_ne_true hin)).trans hsame,
        hversions.trans (o.versions_addTo db),
        fun p hp => hstays p (SchemaObject.isIn_addTo_of_isIn hp o),
        List.forall_mem_cons.mpr ⟨hstays o (o.isIn_addTo db), hall⟩⟩

/-- Where no object is missing none is created, whatever may be in the way. -/
theorem createMissing_of_isIn (h : ∀ o ∈ objects, o.isIn db = true) :
    createMissing obstacle objects db = .ok ([], db) := by
  induction objects with
  | nil => rfl
  | cons o rest ih =>
    obtain ⟨hin, hrest⟩ := List.forall_mem_cons.mp h
    rw [createMissing, if_pos hin]
    exact ih hrest

/-- Where nothing is in the way every object can be created. -/
theorem exists_createMissing (objects : List SchemaObject) (db : Database) :
    ∃ created next, createMissing none objects db = .ok (created, next) := by
  induction objects generalizing db with
  | nil => exact ⟨[], db, rfl⟩
  | cons o rest ih =>
    rw [createMissing]
    by_cases hin : o.isIn db = true
    · rw [if_pos hin]
      exact ih db
    · obtain ⟨created, next, h⟩ := ih (o.addTo db)
      rw [if_neg hin, statement, ok_bind, h]
      exact ⟨o :: created, next, rfl⟩

/-- Where something is in the way no object can be missing. -/
theorem isIn_of_createMissing {o : Obstacle}
    (h : createMissing (some o) objects db = .ok (created, next)) :
    ∀ p ∈ objects, p.isIn db = true := by
  induction objects with
  | nil => exact nofun
  | cons p rest ih =>
    rw [createMissing] at h
    by_cases hin : p.isIn db = true
    · rw [if_pos hin] at h
      exact List.forall_mem_cons.mpr ⟨hin, ih h⟩
    · rw [if_neg hin] at h
      exact nomatch h

/-- Only an obstacle keeps an object from being created. -/
theorem createMissing_eq_error {e : StoreError} (h : createMissing obstacle objects db = .error e) :
    ∃ (o : Obstacle) (operation : String), e = o.error operation := by
  induction objects generalizing db with
  | nil => exact nomatch h
  | cons p rest ih =>
    rw [createMissing] at h
    by_cases hin : p.isIn db = true
    · rw [if_pos hin] at h
      exact ih h
    · rw [if_neg hin] at h
      cases obstacle with
      | some o => exact ⟨o, p.name, (Except.error.inj h).symm⟩
      | none =>
        obtain ⟨created, next, hmade⟩ := exists_createMissing rest (p.addTo db)
        rw [statement, ok_bind, hmade] at h
        exact nomatch h

end CreateMissing

/-- A version that is recorded decides alone whether anything else is done. -/
theorem prepare_of_recordedVersion? {version : Int} (h : db.recordedVersion? = some version) :
    db.prepare obstacle =
      if version = schemaVersion then createMissing obstacle SchemaObject.all db
      else .error ⟨.versionMismatch, .schemaVersion version⟩ := by
  obtain ⟨versions, instances, executions, steps, jobs, statuses, checkpoints, indexes⟩ := db
  match versions, h with
  | some (.int _ :: rest), rfl =>
    by_cases hknown : version = schemaVersion
    · rw [if_pos hknown, prepare, ensureVersions, ok_bind, ensureVersion]
      simp only [Cell.readInt, ok_bind, if_pos hknown]
    · rw [if_neg hknown, prepare, ensureVersions, ok_bind, ensureVersion]
      simp only [Cell.readInt, ok_bind, if_neg hknown]
      rfl

/-- Where no version is recorded the one that is known is, unless something is in the way. -/
theorem prepare_of_unrecorded (h : db.versions.getD [] = []) :
    db.prepare none =
      createMissing none SchemaObject.all { db with versions := some [.int schemaVersion] } := by
  obtain ⟨versions, instances, executions, steps, jobs, statuses, checkpoints, indexes⟩ := db
  cases versions with
  | none => rfl
  | some rows =>
    obtain rfl : rows = [] := h
    rfl

/-- Whatever is in the way of a first preparation is its error. -/
theorem prepare_obstacle_of_unrecorded (h : db.versions.getD [] = []) (o : Obstacle) :
    ∃ operation, db.prepare (some o) = .error (o.error operation) := by
  obtain ⟨versions, instances, executions, steps, jobs, statuses, checkpoints, indexes⟩ := db
  cases versions with
  | none => exact ⟨"schema meta", rfl⟩
  | some rows =>
    obtain rfl : rows = [] := h
    exact ⟨"schema version", rfl⟩

/-- A record that is no version is a failure. -/
theorem prepare_of_unreadable {cell : Cell} {rest : List Cell}
    (h : db.versions = some (cell :: rest)) (hnone : db.recordedVersion? = none) :
    db.prepare obstacle = .error (.failed "schema version") := by
  obtain ⟨versions, instances, executions, steps, jobs, statuses, checkpoints, indexes⟩ := db
  dsimp only at h
  subst h
  cases cell with
  | int version => exact nomatch hnone
  | null => rfl
  | real x => rfl
  | text s => rfl
  | blob source => rfl

/-- A database has a version recorded, or none, or something else in its place. -/
theorem recorded_cases (db : Database) :
    (∃ version, db.recordedVersion? = some version) ∨ db.versions.getD [] = [] ∨
      db.recordedVersion? = none ∧ ∃ cell rest, db.versions = some (cell :: rest) := by
  cases hversion : db.recordedVersion? with
  | some version => exact .inl ⟨version, rfl⟩
  | none =>
    match hversions : db.versions with
    | none => exact .inr (.inl rfl)
    | some [] => exact .inr (.inl rfl)
    | some (cell :: rest) => exact .inr (.inr ⟨rfl, cell, rest, rfl⟩)

/-- A complete schema stays as it is. -/
theorem IsComplete.prepare (h : db.IsComplete) (obstacle : Option Obstacle) :
    db.prepare obstacle = .ok ([], db) := by
  rw [prepare_of_recordedVersion? h.version, if_pos rfl]
  exact createMissing_of_isIn fun o _ => h.isIn o

/-- Completing a schema makes it complete, and keeps the tables. -/
theorem prepare_eq_ok {created : List SchemaObject} (h : db.prepare obstacle = .ok (created, next)) :
    next.IsComplete ∧ SameTables db next := by
  -- By the time objects are created the version is there, and it stays.
  have hall {first : Database} (hversion : first.recordedVersion? = some schemaVersion)
      (hmade : createMissing obstacle SchemaObject.all first = .ok (created, next)) :
      next.IsComplete ∧ SameTables first next := by
    obtain ⟨hsame, hversions, -, hin⟩ := createMissing_eq_ok hmade
    refine ⟨⟨fun o => hin o o.mem_all, ?_⟩, hsame⟩
    rw [recordedVersion?, hversions]
    exact hversion
  obtain ⟨version, hversion⟩ | hnone | ⟨hnone, cell, rest, hversions⟩ := db.recorded_cases
  · rw [prepare_of_recordedVersion? hversion] at h
    split at h
    next hknown => exact hall (hknown ▸ hversion) h
    next => exact nomatch h
  · cases obstacle with
    | none =>
      rw [prepare_of_unrecorded hnone] at h
      obtain ⟨hcomplete, hsame⟩ := hall rfl h
      exact ⟨hcomplete, ⟨hsame.instances, hsame.executions, hsame.steps, hsame.jobStatuses,
        hsame.stepStatuses, hsame.checkpoints⟩⟩
    | some o =>
      obtain ⟨operation, hrefused⟩ := prepare_obstacle_of_unrecorded hnone o
      rw [hrefused] at h
      exact nomatch h
  · rw [prepare_of_unreadable hversions hnone] at h
    exact nomatch h

/-- A schema can be completed exactly if no other version is recorded and nothing is in the way, or
if there is nothing to do. -/
theorem exists_prepare_iff :
    (∃ created next, db.prepare obstacle = .ok (created, next)) ↔
      obstacle = none ∧ (db.versions.getD [] = [] ∨ db.recordedVersion? = some schemaVersion) ∨
        db.IsComplete := by
  constructor
  · rintro ⟨created, next, h⟩
    obtain ⟨version, hversion⟩ | hnone | ⟨hnone, cell, rest, hversions⟩ := db.recorded_cases
    · rw [prepare_of_recordedVersion? hversion] at h
      split at h
      next hknown =>
        rw [hknown] at hversion
        cases obstacle with
        | none => exact .inl ⟨rfl, .inr hversion⟩
        | some o => exact .inr ⟨fun p => isIn_of_createMissing h p p.mem_all, hversion⟩
      next => exact nomatch h
    · cases obstacle with
      | none => exact .inl ⟨rfl, .inl hnone⟩
      | some o =>
        obtain ⟨operation, hrefused⟩ := prepare_obstacle_of_unrecorded hnone o
        rw [hrefused] at h
        exact nomatch h
    · rw [prepare_of_unreadable hversions hnone] at h
      exact nomatch h
  · rintro (⟨rfl, hnone | hversion⟩ | hcomplete)
    · rw [prepare_of_unrecorded hnone]
      exact exists_createMissing _ _
    · rw [prepare_of_recordedVersion? hversion, if_pos rfl]
      exact exists_createMissing _ _
    · exact ⟨[], db, hcomplete.prepare obstacle⟩

/-- Another version that is recorded is told, and is the only reason to speak of versions. -/
theorem prepare_eq_versionMismatch_iff {cause : Cause} :
    db.prepare obstacle = .error ⟨.versionMismatch, cause⟩ ↔
      ∃ version, db.recordedVersion? = some version ∧ version ≠ schemaVersion ∧
        cause = .schemaVersion version := by
  have hobstacle (o : Obstacle) (operation : String) :
      o.error operation ≠ ⟨.versionMismatch, cause⟩ := by
    cases o <;> exact nofun
  have hcreate {first : Database} :
      createMissing obstacle SchemaObject.all first ≠ .error ⟨.versionMismatch, cause⟩ := by
    intro h
    obtain ⟨o, operation, he⟩ := createMissing_eq_error h
    exact hobstacle o operation he.symm
  constructor
  · intro h
    obtain ⟨version, hversion⟩ | hnone | ⟨hnone, cell, rest, hversions⟩ := db.recorded_cases
    · rw [prepare_of_recordedVersion? hversion] at h
      split at h
      next => exact absurd h hcreate
      next hother =>
        injection Except.error.inj h with _ hcause
        exact ⟨version, hversion, hother, hcause.symm⟩
    · cases obstacle with
      | none =>
        rw [prepare_of_unrecorded hnone] at h
        exact absurd h hcreate
      | some o =>
        obtain ⟨operation, hrefused⟩ := prepare_obstacle_of_unrecorded hnone o
        rw [hrefused] at h
        exact absurd (Except.error.inj h) (hobstacle o operation)
    · rw [prepare_of_unreadable hversions hnone] at h
      exact nomatch h
  · rintro ⟨version, hversion, hother, rfl⟩
    rw [prepare_of_recordedVersion? hversion, if_neg hother]

end Database

namespace LedgerFile

/-- What completing the schema of a file answers and leaves. -/
theorem prepareSchema_apply (mayWrite : Bool) (f : LedgerFile) :
    prepareSchema mayWrite f =
      match f.database.prepare (f.obstacle mayWrite) with
      | .ok (created, db) =>
        ⟨.ok (), { f with database := db },
          created.map fun o => .schemaObjectCreated o.kind o.name⟩
      | .error e => ⟨.error e, f, []⟩ := by
  rw [prepareSchema, bind_apply]
  cases hprepare : f.database.prepare (f.obstacle mayWrite) with
  | error e =>
    rw [change_error (by rw [hprepare]; rfl)]
  | ok result =>
    rw [change_ok (by rw [hprepare]; rfl)]
    rfl

/-- Completing the schema of a file keeps its tables. -/
theorem sameTables_prepareSchema (mayWrite : Bool) (f : LedgerFile) :
    f.database.SameTables (prepareSchema mayWrite f).state.database := by
  rw [prepareSchema_apply]
  cases hprepare : f.database.prepare (f.obstacle mayWrite) with
  | error e => exact .refl _
  | ok result => exact (Database.prepare_eq_ok hprepare).2

/-- A schema that was completed is complete. -/
theorem isComplete_prepareSchema {mayWrite : Bool} {f : LedgerFile} {u : Unit}
    (h : (prepareSchema mayWrite f).answer = .ok u) :
    (prepareSchema mayWrite f).state.database.IsComplete := by
  rw [prepareSchema_apply] at h ⊢
  cases hprepare : f.database.prepare (f.obstacle mayWrite) with
  | error e =>
    rw [hprepare] at h
    exact nomatch h
  | ok result => exact (Database.prepare_eq_ok hprepare).1

/-- Completing the schema of a file either fails and leaves the file alone, or it leaves a schema
that is complete over the same tables, and another time it finds nothing to do. Another version that
is recorded is told and is the only reason to speak of versions; without one, and with the right to
write under no lock, it does not fail. -/
theorem prepareSchema_all_or_nothing (mayWrite : Bool) (f : LedgerFile) :
    ((∃ e, (prepareSchema mayWrite f).answer = .error e ∧ (prepareSchema mayWrite f).state = f) ∨
      (prepareSchema mayWrite f).answer = .ok () ∧
        ∃ db : Database, (prepareSchema mayWrite f).state = { f with database := db } ∧
          (∀ o : SchemaObject, o.isIn db = true) ∧ db.recordedVersion? = some schemaVersion ∧
          f.database.SameTables db ∧
          ∀ again, prepareSchema again { f with database := db } =
            ⟨.ok (), { f with database := db }, []⟩) ∧
    ((prepareSchema mayWrite f).answer = .ok () ↔
      f.obstacle mayWrite = none ∧
          (f.database.versions.getD [] = [] ∨ f.database.recordedVersion? = some schemaVersion) ∨
        f.database.IsComplete) ∧
    ∀ cause, (prepareSchema mayWrite f).answer = .error ⟨.versionMismatch, cause⟩ ↔
      ∃ version, f.database.recordedVersion? = some version ∧ version ≠ schemaVersion ∧
        cause = .schemaVersion version := by
  have hmismatch (cause : Cause) :
      f.database.prepare (f.obstacle mayWrite) = .error ⟨.versionMismatch, cause⟩ ↔ _ :=
    Database.prepare_eq_versionMismatch_iff
  rw [← Database.exists_prepare_iff, prepareSchema_apply]
  cases hprepare : f.database.prepare (f.obstacle mayWrite) with
  | error e =>
    rw [hprepare] at hmismatch
    refine ⟨.inl ⟨e, rfl, rfl⟩, ⟨nofun, ?_⟩, fun cause => ?_⟩
    · rintro ⟨created, next, h⟩
      exact nomatch h
    · rw [← hmismatch cause, Except.error.injEq, Except.error.injEq]
  | ok result =>
    obtain ⟨created, db⟩ := result
    rw [hprepare] at hmismatch
    obtain ⟨hcomplete, hsame⟩ := Database.prepare_eq_ok hprepare
    refine ⟨.inr ⟨rfl, db, rfl, hcomplete.isIn, hcomplete.version, hsame, fun again => ?_⟩,
      ⟨fun _ => ⟨created, db, rfl⟩, fun _ => rfl⟩, fun cause => ⟨nofun, fun h => ?_⟩⟩
    · rw [prepareSchema_apply, hcomplete.prepare]
      rfl
    · exact nomatch (hmismatch cause).mpr h

end LedgerFile

end JobLedger
