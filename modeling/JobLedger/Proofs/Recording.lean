import JobLedger.Proofs.Operation

/-!
# Stores that record what they create

A store may be taken together with a list of the instances that were created on it. The list makes no
difference to the store: operations are made of calls, and answer alike on stores that answer calls
alike.
-/

namespace JobLedger

open JobLedger.Action

section Simulation

variable {σ τ : Type} [LedgerStore σ] [LedgerStore τ] {R : σ → τ → Prop}

/-- In states that correspond two stores answer a call alike, and it leads to states that
correspond. -/
abbrev AnswersAlike (R : σ → τ → Prop) (call : Call) : Prop :=
  Simulates R (perform call : Action LedgerError σ call.Answer) (perform call)

namespace Tracker

/-- A move is checked alike on both sides. -/
theorem simulates_ensureMove {σ τ : Type} {R : σ → τ → Prop} (holder : StatusHolder)
    (origin target : BatchStatus) :
    Simulates R (ensureMove holder origin target) (ensureMove holder origin target) := by
  rw [ensureMove, ensureMove]
  split
  · exact .answer ()
  · exact (Simulates.report _).bind fun _ => .fail _

/-- A status record is looked up alike if its one call is answered alike. -/
theorem simulates_jobStatus {id : InstanceId} (hfind : AnswersAlike R (.findJobStatus id)) :
    Simulates R (jobStatus (σ := σ) id) (jobStatus id) :=
  hfind.bind fun _ => .ofOption _ _

/-- A move goes alike if its one call is answered alike. -/
theorem simulates_moveJobStatus {current next : JobStatus}
    (hupdate : AnswersAlike R (.updateJobStatus next)) :
    Simulates R (moveJobStatus (σ := σ) current next) (moveJobStatus current next) :=
  (simulates_ensureMove _ _ _).bind fun _ => hupdate.bind fun _ =>
    (Simulates.report _).bind fun _ => .answer _

/-- A transition stores the record that it looked up, moved. -/
theorem simulates_moveJob {A : JobStatus → Prop} {id : InstanceId} {transition : JobTransition}
    (hfind : AnswersAlike R (.findJobStatus id))
    (hfound : ∀ s t current, R s t → (perform (.findJobStatus id) t).answer = .ok (some current) →
      A current)
    (hupdate : ∀ current, A current → AnswersAlike R (.updateJobStatus (transition.apply current))) :
    Simulates R (moveJob (σ := σ) id transition) (moveJob id transition) := by
  have hjob : Simulates R
      (jobStatus (σ := σ) id >>= fun current => moveJobStatus current (transition.apply current))
      (jobStatus id >>= fun current => moveJobStatus current (transition.apply current)) := by
    refine (simulates_jobStatus hfind).bind_of (A := A) (fun s t current hst hanswer => ?_)
      fun current hcurrent => simulates_moveJobStatus (hupdate current hcurrent)
    exact hfound s t current hst (perform_of_jobStatus hanswer)
  rw [moveJob, moveJob]
  split
  · exact (simulates_ensureStepName _).bind fun _ => hjob
  · exact (Simulates.answer ()).bind fun _ => hjob

/-- The status record of a step is looked up alike if its one call is answered alike. -/
theorem simulates_stepStatus {id : InstanceId} {step : String}
    (hfind : AnswersAlike R (.findStepStatus id step)) :
    Simulates R (stepStatus (σ := σ) id step) (stepStatus id step) :=
  (simulates_ensureStepName step).bind fun _ => hfind.bind fun _ => .ofOption _ _

end Tracker

namespace Checkpoint

variable {id : InstanceId} {step : String}

/-- A pair is created alike if its one call is answered alike. -/
theorem simulates_create (hcreate : AnswersAlike R (.createPair id step)) :
    Simulates R (create (σ := σ) id step) (create id step) :=
  (simulates_ensureStepName step).bind fun _ => hcreate.bind fun _ => .report _

/-- A pair is looked up alike if its one call is answered alike. -/
theorem simulates_get (hfind : AnswersAlike R (.findPair id step)) :
    Simulates R (get (σ := σ) id step) (get id step) :=
  (simulates_ensureStepName step).bind fun _ => hfind.bind fun _ => .ofOption _ _

/-- A pair is made sure of alike if its two calls are answered alike. -/
theorem simulates_ensure (hfind : AnswersAlike R (.findPair id step))
    (hcreate : AnswersAlike R (.createPair id step)) :
    Simulates R (ensure (σ := σ) id step) (ensure id step) := by
  refine (simulates_ensureStepName step).bind fun _ => hfind.bind fun found => ?_
  cases found with
  | some pair => exact .answer pair
  | none =>
    refine ((simulates_create hcreate).orElse fun e => ?_).bind fun _ => simulates_get hfind
    split
    · exact .answer ()
    · exact .fail e

/-- A pair is updated alike if its one call is answered alike. -/
theorem simulates_update {pair : CheckpointPair}
    (hupdate : AnswersAlike R (.updatePair id step pair)) :
    Simulates R (update (σ := σ) id step pair) (update id step pair) :=
  (simulates_ensureStepName step).bind fun _ => hupdate.bind fun _ => .report _

end Checkpoint

namespace Partition

/-- Counts are added up alike if the two calls are answered alike. -/
theorem simulates_totals {root : ExecutionId} {step : String}
    (hroot : AnswersAlike R (.instanceOf root))
    (hrows : ∀ id, AnswersAlike R (.partitionMetrics id step)) :
    Simulates R (totals (σ := σ) root step) (totals root step) :=
  (simulates_ensureStepName step).bind fun _ => hroot.bind fun id => (hrows id).bind fun _ =>
    (Simulates.ofOption _ _).bind fun _ => (Simulates.report _).bind fun _ => .answer _

/-- Partitions are created alike if the creation of each of them is answered alike. -/
theorem simulates_createEach {root : InstanceId} {step appTag : String} {indices : List UInt32}
    (hcreate : ∀ index, AnswersAlike R (.createPartition ⟨root, step, index⟩ appTag)) :
    Simulates R (createEach (σ := σ) root step appTag indices)
      (createEach root step appTag indices) := by
  induction indices with
  | nil => exact .answer _
  | cons index rest ih => exact (hcreate index).bind fun _ => ih.bind fun _ => .answer _

end Partition

/-- An operation answers alike on stores that answer the calls alike that it may make. -/
theorem Operation.simulates_perform {operation : Operation}
    (hcalls : ∀ call, operation.Makes call → AnswersAlike R call) :
    Simulates R (operation.perform : Action LedgerError σ operation.Answer) operation.perform := by
  cases operation with
  | call call => exact hcalls call rfl
  | createJobStatus id | createStepStatus id | incrementStartCount id =>
    exact (hcalls _ rfl).bind fun _ => (Simulates.report _).bind fun _ => .answer _
  | jobStatus id => exact Tracker.simulates_jobStatus (hcalls _ rfl)
  | jobStatusOf id => exact (hcalls _ rfl).bind fun _ => .ofOption _ _
  | updateJobStatus status =>
    exact (Tracker.simulates_jobStatus (hcalls _ (.inl rfl))).bind fun _ =>
      (Tracker.simulates_moveJobStatus (hcalls _ (.inr rfl))).bind fun _ => .answer _
  | moveJob id transition =>
    exact Tracker.simulates_moveJob (A := fun _ => True) (hcalls _ (.inl rfl))
      (fun _ _ _ _ _ => trivial) fun _ _ => hcalls _ (.inr ⟨_, rfl⟩)
  | stepStatus id step => exact Tracker.simulates_stepStatus (hcalls _ rfl)
  | updateStepStatus id step status =>
    refine (Tracker.simulates_stepStatus (hcalls _ (.inl rfl))).bind fun current => ?_
    split
    · exact .fail _
    · exact (Tracker.simulates_ensureMove _ _ _).bind fun _ => (hcalls _ (.inr rfl)).bind fun _ =>
        .report _
  | createCheckpoint id step => exact Checkpoint.simulates_create (hcalls _ rfl)
  | ensureCheckpoint id step =>
    exact Checkpoint.simulates_ensure (hcalls _ (.inl rfl)) (hcalls _ (.inr rfl))
  | getCheckpoint id step => exact Checkpoint.simulates_get (hcalls _ rfl)
  | updateCheckpoint id step pair => exact Checkpoint.simulates_update (hcalls _ rfl)
  | getDecoded reader writer id step =>
    exact (Checkpoint.simulates_get (hcalls _ rfl)).bind fun _ =>
      (Simulates.ofExcept _).bind fun _ => (Simulates.ofExcept _).bind fun _ => .answer _
  | updateEncoded reader writer id step read written =>
    exact (Simulates.ofExcept _).bind fun _ => (Simulates.ofExcept _).bind fun _ =>
      Checkpoint.simulates_update (hcalls _ ⟨_, rfl⟩)
  | partitionTotals root step =>
    exact Partition.simulates_totals (hcalls _ (.inl rfl)) fun _ => hcalls _ (.inr ⟨_, rfl⟩)
  | aggregatePartitions root step parent time final =>
    exact (Partition.simulates_totals (hcalls _ (.inl (.inl rfl)))
      fun _ => hcalls _ (.inl (.inr ⟨_, rfl⟩))).bind fun _ =>
        (hcalls _ (.inr (.inl rfl))).bind fun _ => (Simulates.ofOption _ _).bind fun _ =>
          (hcalls _ (.inr (.inr ⟨_, rfl⟩))).bind fun _ => (Simulates.report _).bind fun _ =>
            .answer _
  | createPartitions root step count appTag =>
    exact (simulates_ensureStepName step).bind fun _ =>
      Partition.simulates_createEach fun _ => hcalls _ ⟨_, rfl⟩

end Simulation

section Map

variable {σ τ : Type} [LedgerStore σ] [LedgerStore τ] {f : τ → σ}
  (hcalls : ∀ (call : Call) (t : τ),
    (LedgerStore.perform call t).answer = (LedgerStore.perform call (f t)).answer ∧
      f (LedgerStore.perform call t).state = (LedgerStore.perform call (f t)).state)

include hcalls

/-- What a store shows of itself goes through an operation as the store does, if it answers calls
alike. -/
theorem Operation.map_perform (t : τ) (operation : Operation) :
    (operation.perform t).answer = (operation.perform (f t)).answer ∧
      f (operation.next t) = operation.next (f t) := by
  have hsame : Simulates (fun t s => f t = s) operation.perform operation.perform :=
    operation.simulates_perform fun call _ t s h => by subst h; exact hcalls call t
  exact hsame t (f t) rfl

/-- A function that follows each operation follows a run of them. -/
theorem Operation.map_run (t : τ) (operations : List Operation) :
    f (run t operations) = run (f t) operations := by
  induction operations generalizing t with
  | nil => rfl
  | cons operation rest ih => rw [run_cons, ih, run_cons, (map_perform hcalls t operation).2]

end Map

/-! ## The instances that were created -/

/-- Instances that were created, in the order in which they were, each with the partition as which it
was created, if it was created as one. -/
abbrev Creations := List (JobInstance × Option PartitionName)

/-- The instance that a call created. -/
def Call.instanceMade : (call : Call) → Except LedgerError call.Answer → Creations
  | .createInstance .., .ok i => [(i, none)]
  | .createPartition name _, .ok i => [(i, some name)]
  | _, _ => []

/-- A call that fails creates nothing. -/
theorem Call.instanceMade_error (call : Call) (e : LedgerError) :
    call.instanceMade (.error e) = [] := by
  cases call <;> rfl

/-- Names with a colon in front were given to partitions only. -/
def Creations.NamesPartitions (made : Creations) : Prop :=
  ∀ entry ∈ made, entry.2 = none → isPartitionName entry.1.name = false

instance (made : Creations) : Decidable made.NamesPartitions :=
  inferInstanceAs
    (Decidable (∀ entry ∈ made, entry.2 = none → isPartitionName entry.1.name = false))

/-- A store, and the instances that were created on it. -/
structure Recorded (σ : Type) where
  store : σ
  made : Creations

namespace Recorded

variable {σ : Type} [LedgerStore σ]

/-- A call on the store; if it creates an instance that is recorded. -/
instance : LedgerStore (Recorded σ) where
  perform call s :=
    let outcome := LedgerStore.perform call s.store
    ⟨outcome.answer, ⟨outcome.state, s.made ++ call.instanceMade outcome.answer⟩, outcome.events⟩

/-- Recording makes no difference to a run. -/
theorem store_run (s : Recorded σ) (operations : List Operation) :
    (Operation.run s operations).store = Operation.run s.store operations :=
  Operation.map_run (f := store) (fun _ _ => ⟨rfl, rfl⟩) s operations

end Recorded

/-- The instances that a run of operations creates. -/
def Operation.instancesMade {σ : Type} [LedgerStore σ] (s : σ) (operations : List Operation) :
    Creations :=
  (run (⟨s, []⟩ : Recorded σ) operations).made

end JobLedger
