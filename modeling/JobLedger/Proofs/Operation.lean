import JobLedger.Operation
import JobLedger.Proofs.Action

/-!
# What operations keep

An operation is made of a few calls on the store. It keeps what the calls keep that it may make, and
a run of operations keeps what every call keeps.
-/

namespace JobLedger

open JobLedger.Action

variable {σ : Type} {P : σ → Prop}

/-- Checking a step name changes nothing. -/
theorem keeps_ensureStepName (step : String) : Keeps P (ensureStepName step) := by
  rw [ensureStepName]
  cases stepNameFault? step with
  | none => exact Keeps.answer _
  | some fault => exact Keeps.fail _

/-- A step name is let through. -/
theorem ensureStepName_of_none {step : String} (h : stepNameFault? step = none) :
    (ensureStepName step : Action LedgerError σ Unit) = answer () := by
  rw [ensureStepName, h]

/-- What is let through is not asked for its step name again. -/
theorem ensureStepName_bind {α : Type} {step : String} {x : Action LedgerError σ α}
    (hname : (ensureStepName step : Action LedgerError σ Unit) = answer ()) :
    (ensureStepName step >>= fun _ => x) = x := by
  rw [hname]
  rfl

/-- What is let through is a step name. -/
theorem stepNameFault?_of_ensured {step : String} {s : σ}
    (h : ((ensureStepName step : Action LedgerError σ Unit) s).answer = .ok ()) :
    stepNameFault? step = none := by
  cases hfault : stepNameFault? step with
  | none => rfl
  | some fault =>
    rw [ensureStepName, hfault] at h
    cases h

/-- A step name is let through, or it is refused in whatever store. -/
theorem ensureStepName_cases (step : String) :
    (∀ τ : Type, (ensureStepName step : Action LedgerError τ Unit) = answer ()) ∨
      ∃ e, ∀ τ : Type, (ensureStepName step : Action LedgerError τ Unit) = fail e := by
  cases hfault : stepNameFault? step with
  | none => exact .inl fun τ => ensureStepName_of_none hfault
  | some fault => exact .inr ⟨_, fun τ => by rw [ensureStepName, hfault]⟩

/-- What is answered behind a step name is answered without asking for the name. -/
theorem answer_of_checked {α : Type} {step : String} {x : Action LedgerError σ α} {s : σ} {a : α}
    (h : ((ensureStepName step >>= fun _ => x) s).answer = .ok a) : (x s).answer = .ok a := by
  rcases ensureStepName_cases step with hname | ⟨e, hfail⟩
  · rwa [ensureStepName_bind (hname σ)] at h
  · rw [hfail σ] at h
    exact nomatch h

/-- A step name is checked alike on both sides. -/
theorem simulates_ensureStepName {σ τ : Type} {R : σ → τ → Prop} (step : String) :
    Simulates R (ensureStepName step : Action LedgerError σ Unit) (ensureStepName step) := by
  rw [ensureStepName, ensureStepName]
  cases stepNameFault? step with
  | none => exact .answer ()
  | some fault => exact .fail _

/-- A step name that is asked for twice is let through twice. -/
theorem simulates_checked {τ α : Type} {R : σ → τ → Prop} {x : Action LedgerError σ α}
    {y : Action LedgerError τ α} {step : String}
    (h : Simulates R x (ensureStepName step >>= fun _ => y)) :
    Simulates R (ensureStepName step >>= fun _ => x) (ensureStepName step >>= fun _ => y) := by
  rw [ensureStepName] at h
  rw [ensureStepName, ensureStepName]
  cases hfault : stepNameFault? step with
  | none =>
    rw [hfault] at h
    exact fun s t hr => h s t hr
  | some fault => exact fun _ _ hr => ⟨rfl, hr⟩

namespace Operation

/-- An operation may make a call on the store. -/
def Makes : Operation → Call → Prop
  | .call c, made => made = c
  | .createJobStatus id, made => made = .createJobStatus id
  | .jobStatus id, made => made = .findJobStatus id
  | .jobStatusOf id, made => made = .jobStatusOf id
  | .updateJobStatus status, made =>
    made = .findJobStatus status.instanceId ∨ made = .updateJobStatus status
  | .moveJob id _, made => made = .findJobStatus id ∨ ∃ status, made = .updateJobStatus status
  | .createStepStatus id, made => made = .createStepStatus id
  | .stepStatus id step, made => made = .findStepStatus id step
  | .updateStepStatus id step status, made =>
    made = .findStepStatus id step ∨ made = .updateStepStatus status
  | .incrementStartCount id, made => made = .incrementStartCount id
  | .createCheckpoint id step, made => made = .createPair id step
  | .ensureCheckpoint id step, made => made = .findPair id step ∨ made = .createPair id step
  | .getCheckpoint id step, made => made = .findPair id step
  | .updateCheckpoint id step pair, made => made = .updatePair id step pair
  | .getDecoded _ _ id step, made => made = .findPair id step
  | .updateEncoded _ _ id step _ _, made => ∃ pair, made = .updatePair id step pair
  | .partitionTotals root step, made =>
    made = .instanceOf root ∨ ∃ id, made = .partitionMetrics id step
  | .aggregatePartitions root step parent _ _, made =>
    (made = .instanceOf root ∨ ∃ id, made = .partitionMetrics id step) ∨
      made = .findStep parent ∨ ∃ update, made = .updateStep parent update
  | .createPartitions root step _ appTag, made =>
    ∃ index, made = .createPartition ⟨root, step, index⟩ appTag

end Operation

/-- Checking a move changes nothing. -/
theorem Tracker.keeps_ensureMove (holder : StatusHolder) (origin target : BatchStatus) :
    Keeps P (Tracker.ensureMove holder origin target) := by
  rw [Tracker.ensureMove]
  split
  · exact Keeps.answer _
  · exact Keeps.bind (Keeps.report _) fun _ => Keeps.fail _

section Parts

variable [LedgerStore σ]

namespace Tracker

/-- Looking up a status record keeps what its one call keeps. -/
theorem keeps_jobStatus {id : InstanceId} (hfind : Keeps P (perform (.findJobStatus id))) :
    Keeps P (jobStatus id) :=
  hfind.bind fun _ => Keeps.ofOption _ _

/-- The record of an instance is the one that the store finds. -/
theorem perform_of_jobStatus {id : InstanceId} {s : σ} {current : JobStatus}
    (h : (jobStatus id s).answer = .ok current) :
    (perform (.findJobStatus id) s).answer = .ok (some current) := by
  rw [jobStatus] at h
  obtain ⟨found, hfound, hanswer, -⟩ := bind_eq_ok h
  cases found with
  | none => exact nomatch hanswer
  | some status => rw [hfound, Except.ok.inj hanswer]

/-- A move keeps what its one call keeps. -/
theorem keeps_moveJobStatus {current next : JobStatus}
    (hupdate : Keeps P (perform (.updateJobStatus next))) :
    Keeps P (moveJobStatus current next) :=
  (keeps_ensureMove _ _ _).bind fun _ => hupdate.bind fun _ => (Keeps.report _).bind fun _ =>
    Keeps.answer _

/-- A transition stores the record that it looked up, moved. -/
theorem keeps_moveJob {A : JobStatus → Prop} {id : InstanceId} {transition : JobTransition}
    (hfind : Keeps P (perform (.findJobStatus id)))
    (hfound : ∀ s current, P s → (perform (.findJobStatus id) s).answer = .ok (some current) →
      A current)
    (hupdate : ∀ current, A current →
      Keeps P (perform (.updateJobStatus (transition.apply current)))) :
    Keeps P (moveJob id transition) := by
  have hjob : Keeps P (jobStatus id >>= fun current =>
      moveJobStatus current (transition.apply current)) := by
    refine (keeps_jobStatus hfind).bind_of (A := A) (fun s current hs hanswer => ?_)
      fun current hcurrent => keeps_moveJobStatus (hupdate current hcurrent)
    exact hfound s current hs (perform_of_jobStatus hanswer)
  rw [moveJob]
  split
  · exact (keeps_ensureStepName _).bind fun _ => hjob
  · exact (Keeps.answer _).bind fun _ => hjob

/-- Looking up the status record of a step keeps what its one call keeps. -/
theorem keeps_stepStatus {id : InstanceId} {step : String}
    (hfind : Keeps P (perform (.findStepStatus id step))) : Keeps P (stepStatus id step) :=
  (keeps_ensureStepName _).bind fun _ => hfind.bind fun _ => Keeps.ofOption _ _

/-- The record of a step is the one that the store finds. -/
theorem perform_of_stepStatus {id : InstanceId} {step : String} {s : σ} {current : StepStatus}
    (h : (stepStatus id step s).answer = .ok current) :
    (perform (.findStepStatus id step) s).answer = .ok (some current) := by
  rw [stepStatus] at h
  obtain ⟨found, hfound, hanswer, -⟩ := bind_eq_ok (answer_of_checked h)
  cases found with
  | none => exact nomatch hanswer
  | some status => rw [hfound, Except.ok.inj hanswer]

end Tracker

namespace Checkpoint

/-- Creating a pair keeps what its one call keeps. -/
theorem keeps_create {id : InstanceId} {step : String}
    (hcreate : Keeps P (perform (.createPair id step))) : Keeps P (create id step) :=
  (keeps_ensureStepName _).bind fun _ => hcreate.bind fun _ => Keeps.report _

/-- Looking up a pair keeps what its one call keeps. -/
theorem keeps_get {id : InstanceId} {step : String}
    (hfind : Keeps P (perform (.findPair id step))) : Keeps P (get id step) :=
  (keeps_ensureStepName _).bind fun _ => hfind.bind fun _ => Keeps.ofOption _ _

/-- The tokens of a step are those that the store finds. -/
theorem perform_of_get {id : InstanceId} {step : String} {s : σ} {current : CheckpointPair}
    (h : (get id step s).answer = .ok current) :
    (perform (.findPair id step) s).answer = .ok (some current) := by
  rw [get] at h
  obtain ⟨found, hfound, hanswer, -⟩ := bind_eq_ok (answer_of_checked h)
  cases found with
  | none => exact nomatch hanswer
  | some pair => rw [hfound, Except.ok.inj hanswer]

/-- Making sure of a pair keeps what its two calls keep. -/
theorem keeps_ensure {id : InstanceId} {step : String}
    (hfind : Keeps P (perform (.findPair id step)))
    (hcreate : Keeps P (perform (.createPair id step))) : Keeps P (ensure id step) := by
  refine (keeps_ensureStepName _).bind fun _ => hfind.bind fun found => ?_
  cases found with
  | some pair => exact Keeps.answer _
  | none =>
    refine Keeps.bind ((keeps_create hcreate).orElse fun e => ?_) fun _ => keeps_get hfind
    split
    · exact Keeps.answer _
    · exact Keeps.fail _

/-- Updating a pair keeps what its one call keeps. -/
theorem keeps_update {id : InstanceId} {step : String} {pair : CheckpointPair}
    (hupdate : Keeps P (perform (.updatePair id step pair))) : Keeps P (update id step pair) :=
  (keeps_ensureStepName _).bind fun _ => hupdate.bind fun _ => Keeps.report _

end Checkpoint

namespace Partition

/-- Adding up counts keeps what its two calls keep. -/
theorem keeps_totals {root : ExecutionId} {step : String}
    (hroot : Keeps P (perform (.instanceOf root)))
    (hrows : ∀ id, Keeps P (perform (.partitionMetrics id step))) : Keeps P (totals root step) :=
  (keeps_ensureStepName _).bind fun _ => hroot.bind fun _ => (hrows _).bind fun _ =>
    (Keeps.ofOption _ _).bind fun _ => (Keeps.report _).bind fun _ => Keeps.answer _

/-- Creating partitions keeps what the creation of each of them keeps. -/
theorem keeps_createEach {root : InstanceId} {step appTag : String} {indices : List UInt32}
    (hcreate : ∀ index, Keeps P (perform (.createPartition ⟨root, step, index⟩ appTag))) :
    Keeps P (createEach root step appTag indices) := by
  induction indices with
  | nil => exact Keeps.answer _
  | cons index rest ih =>
    exact (hcreate index).bind fun _ => ih.bind fun _ => Keeps.answer _

end Partition

namespace Operation

/-- An operation keeps what the calls keep that it may make. -/
theorem keeps_perform {operation : Operation}
    (hcalls : ∀ call, operation.Makes call → Keeps P (LedgerStore.perform call)) :
    Keeps P operation.perform := by
  cases operation with
  | call c => exact hcalls c rfl
  | createJobStatus id | createStepStatus id | incrementStartCount id =>
    exact (hcalls _ rfl).bind fun _ => (Keeps.report _).bind fun _ => Keeps.answer _
  | jobStatus id => exact Tracker.keeps_jobStatus (hcalls _ rfl)
  | jobStatusOf id => exact (hcalls _ rfl).bind fun _ => Keeps.ofOption _ _
  | updateJobStatus status =>
    exact (Tracker.keeps_jobStatus (hcalls _ (.inl rfl))).bind fun _ =>
      (Tracker.keeps_moveJobStatus (hcalls _ (.inr rfl))).discard
  | moveJob id transition =>
    exact Tracker.keeps_moveJob (A := fun _ => True) (hcalls _ (.inl rfl))
      (fun _ _ _ _ => trivial) fun _ _ => hcalls _ (.inr ⟨_, rfl⟩)
  | stepStatus id step => exact Tracker.keeps_stepStatus (hcalls _ rfl)
  | updateStepStatus id step status =>
    refine (Tracker.keeps_stepStatus (hcalls _ (.inl rfl))).bind fun current => ?_
    split
    · exact Keeps.fail _
    · exact (Tracker.keeps_ensureMove _ _ _).bind fun _ => (hcalls _ (.inr rfl)).bind fun _ =>
        Keeps.report _
  | createCheckpoint id step => exact Checkpoint.keeps_create (hcalls _ rfl)
  | ensureCheckpoint id step =>
    exact Checkpoint.keeps_ensure (hcalls _ (.inl rfl)) (hcalls _ (.inr rfl))
  | getCheckpoint id step => exact Checkpoint.keeps_get (hcalls _ rfl)
  | updateCheckpoint id step pair => exact Checkpoint.keeps_update (hcalls _ rfl)
  | getDecoded reader writer id step =>
    exact (Checkpoint.keeps_get (hcalls _ rfl)).bind fun _ => (Keeps.ofExcept _).bind fun _ =>
      (Keeps.ofExcept _).bind fun _ => Keeps.answer _
  | updateEncoded reader writer id step read written =>
    exact (Keeps.ofExcept _).bind fun _ => (Keeps.ofExcept _).bind fun _ =>
      Checkpoint.keeps_update (hcalls _ ⟨_, rfl⟩)
  | partitionTotals root step =>
    exact Partition.keeps_totals (hcalls _ (.inl rfl)) fun _ => hcalls _ (.inr ⟨_, rfl⟩)
  | aggregatePartitions root step parent time final =>
    have htotals : Keeps P (Partition.totals root step) :=
      Partition.keeps_totals (hcalls _ (.inl (.inl rfl))) fun _ => hcalls _ (.inl (.inr ⟨_, rfl⟩))
    exact htotals.bind fun _ => (hcalls _ (.inr (.inl rfl))).bind fun _ =>
      (Keeps.ofOption _ _).bind fun _ => (hcalls _ (.inr (.inr ⟨_, rfl⟩))).bind fun _ =>
        (Keeps.report _).bind fun _ => Keeps.answer _
  | createPartitions root step count appTag =>
    exact (keeps_ensureStepName _).bind fun _ =>
      Partition.keeps_createEach fun _ => hcalls _ ⟨_, rfl⟩

/-- What every call keeps, a run of operations keeps. -/
theorem run_induction (hcalls : ∀ call, Keeps P (LedgerStore.perform call)) {state : σ}
    (hstate : P state) (operations : List Operation) : P (run state operations) := by
  induction operations generalizing state with
  | nil => exact hstate
  | cons operation rest ih =>
    rw [run_cons]
    exact ih (keeps_perform (fun call _ => hcalls call) state hstate)

end Operation

end Parts

end JobLedger
