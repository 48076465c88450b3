import JobLedger.Proofs.Operation

/-!
# Actions that fail in place

An action that fails leaves what is kept in the state as it was. A sequence does so if all of it but
one action only looks, and nothing fails behind the one that may change something. The operations
are such sequences, apart from the creation of partitions one by one, and of a pair that is looked up
once it has been created.
-/

namespace JobLedger

namespace Action

variable {ε ε' σ τ δ α β : Type} {kept : σ → δ}

/-- An action leaves what is kept as it was, whether it succeeds or not. -/
def Spares (kept : σ → δ) (x : Action ε σ α) : Prop := ∀ d, Keeps (fun s => kept s = d) x

/-- What is spared by an action is after it what it was before. -/
theorem Spares.apply {x : Action ε σ α} (h : Spares kept x) (s : σ) :
    kept (x s).state = kept s := h (kept s) s rfl

/-- An action that fails leaves what is kept as it was. -/
def Atomic (kept : σ → δ) (x : Action ε σ α) : Prop :=
  ∀ s e, (x s).answer = .error e → kept (x s).state = kept s

/-- An action never fails. -/
def Answers (x : Action ε σ α) : Prop := ∀ s, ∃ a, (x s).answer = .ok a

/-- A sequence never fails if its parts never do. -/
theorem Answers.bind {x : Action ε σ α} {f : α → Action ε σ β} (hx : Answers x)
    (hf : ∀ a, Answers (f a)) : Answers (x >>= f) := by
  intro s
  obtain ⟨a, ha⟩ := hx s
  rw [(bind_ok ha f).1]
  exact hf a _

theorem Answers.report (event : Event) : Answers (Action.report event : Action ε σ Unit) :=
  fun _ => ⟨(), rfl⟩

theorem Answers.answer (a : α) : Answers (Action.answer a : Action ε σ α) := fun _ => ⟨a, rfl⟩

theorem Answers.state : Answers (Action.state : Action ε σ σ) := fun s => ⟨s, rfl⟩

theorem Answers.edit (f : σ → σ) : Answers (Action.edit f : Action ε σ Unit) := fun _ => ⟨(), rfl⟩

namespace Atomic

/-- An action that spares what is kept spares it also if it fails. -/
theorem of_spares {x : Action ε σ α} (h : Spares kept x) : Atomic kept x := fun s _ _ => h.apply s

/-- Whatever an action writes that never fails, it has not failed. -/
theorem of_answers {x : Action ε σ α} (h : Answers x) : Atomic kept x := by
  intro s e he
  obtain ⟨a, ha⟩ := h s
  rw [ha] at he
  exact nomatch he

/-- A change takes place as a whole or not at all. -/
theorem change (f : σ → Except ε (α × σ)) : Atomic kept (Action.change f) := by
  intro s e he
  cases hf : f s with
  | error e' => rw [change_error hf]
  | ok result =>
    rw [change_ok hf] at he
    exact nomatch he

/-- Errors put in other terms are the same failures. -/
theorem mapError {g : ε → ε'} {x : Action ε σ α} (h : Atomic kept x) :
    Atomic kept (Action.mapError g x) := by
  intro s e he
  rw [Action.mapError] at he ⊢
  cases ha : (x s).answer with
  | error e' => exact h s e' ha
  | ok a =>
    rw [ha] at he
    exact nomatch he

/-- An action on a part of a larger state, in which all that is kept stands in that part. -/
theorem within {get : τ → σ} {set : τ → σ → τ} {whole : τ → δ} {x : Action ε σ α}
    (hget : ∀ t, kept (get t) = whole t) (hset : ∀ t s, whole (set t s) = kept s)
    (h : Atomic kept x) : Atomic whole (Action.within get set x) := by
  intro t e he
  have hpart : kept (x (get t)).state = kept (get t) := h (get t) e he
  calc whole (Action.within get set x t).state
      = kept (x (get t)).state := hset t _
    _ = whole t := hpart.trans (hget t)

/-- First something is only looked at. -/
theorem bind_of_spares {x : Action ε σ α} {f : α → Action ε σ β} (hx : Spares kept x)
    (hf : ∀ a, Atomic kept (f a)) : Atomic kept (x >>= f) := by
  intro s e he
  cases ha : (x s).answer with
  | error e' =>
    rw [(bind_error ha f).2]
    exact hx.apply s
  | ok a =>
    rw [(bind_ok ha f).1] at he
    rw [(bind_ok ha f).2, hf a _ e he]
    exact hx.apply s

/-- In the end nothing can fail any more. -/
theorem bind_of_answers {x : Action ε σ α} {f : α → Action ε σ β} (hx : Atomic kept x)
    (hf : ∀ a, Answers (f a)) : Atomic kept (x >>= f) := by
  intro s e he
  cases ha : (x s).answer with
  | error e' =>
    rw [(bind_error ha f).2]
    exact hx s e' ha
  | ok a =>
    rw [(bind_ok ha f).1] at he
    obtain ⟨b, hb⟩ := hf a (x s).state
    rw [hb] at he
    exact nomatch he

/-- In the end the result is reported and answered with. -/
theorem reported {x : Action ε σ α} {event : α → Event} {result : α → β} (hx : Atomic kept x) :
    Atomic kept (do
      let a ← x
      Action.report (event a)
      Action.answer (result a)) :=
  hx.bind_of_answers fun _ => (Answers.report _).bind fun _ => .answer _

end Atomic

end Action

open JobLedger.Action

/-- A call only looks something up. -/
def Call.IsQuery : Call → Prop
  | .findInstance .. | .tagOfInstance .. | .countInstances .. | .pageInstances ..
  | .externalInstances | .findExecution .. | .executionsOf .. | .runningExecutions ..
  | .instanceOf .. | .parametersOf .. | .tagOfExecution .. | .latestExecution .. | .findStep ..
  | .stepsOf .. | .recentSteps .. | .partitionMetrics .. | .readiness | .findJobStatus ..
  | .jobStatusOf .. | .findStepStatus .. | .findPair .. => True
  | _ => False

/-- The calls on a store fail in place, and those that look something up change nothing. -/
structure AtomicStore {σ δ : Type} [LedgerStore σ] (kept : σ → δ) : Prop where
  atomic (call : Call) : Atomic kept (perform call : Action LedgerError σ call.Answer)
  spares (call : Call) : call.IsQuery →
    Spares kept (perform call : Action LedgerError σ call.Answer)

/-- A pair that was missing, and was created, is found. -/
def FindsCreated {σ : Type} [LedgerStore σ] (id : InstanceId) (step : String) (s : σ) : Prop :=
  let looked := perform (.findPair id step) s
  let created := perform (.createPair id step) looked.state
  looked.answer = .ok none → created.answer = .ok () →
    ∃ pair, (perform (.findPair id step) created.state).answer = .ok (some pair)

namespace Operation

/-- An operation makes changes one after the other, and may fail between them. -/
def IsSeries : Operation → Prop
  | .createPartitions .. => True
  | _ => False

/-- The step of which an operation makes sure that its pair is there. -/
def ensured? : Operation → Option (InstanceId × String)
  | .ensureCheckpoint id step => some (id, step)
  | _ => none

end Operation

section Operations

variable {σ δ : Type} [LedgerStore σ] {kept : σ → δ} (hstore : AtomicStore kept)

include hstore

/-- Looking up a status record changes nothing. -/
theorem Tracker.spares_jobStatus (id : InstanceId) :
    Spares kept (Tracker.jobStatus (σ := σ) id) :=
  fun d => Tracker.keeps_jobStatus (hstore.spares (.findJobStatus id) trivial d)

/-- Looking up the status record of a step changes nothing. -/
theorem Tracker.spares_stepStatus (id : InstanceId) (step : String) :
    Spares kept (Tracker.stepStatus (σ := σ) id step) :=
  fun d => Tracker.keeps_stepStatus (hstore.spares (.findStepStatus id step) trivial d)

/-- A move is checked first, and reported last. -/
theorem Tracker.atomic_moveJobStatus (current next : JobStatus) :
    Atomic kept (Tracker.moveJobStatus (σ := σ) current next) :=
  .bind_of_spares (fun _ => Tracker.keeps_ensureMove _ _ _) fun _ =>
    (hstore.atomic (.updateJobStatus next)).reported

/-- The step name is checked before a pair is created. -/
theorem Checkpoint.atomic_create (id : InstanceId) (step : String) :
    Atomic kept (Checkpoint.create (σ := σ) id step) :=
  .bind_of_spares (fun _ => keeps_ensureStepName step) fun _ =>
    .bind_of_answers (hstore.atomic (.createPair id step)) fun _ => .report _

/-- Looking up a pair changes nothing. -/
theorem Checkpoint.spares_get (id : InstanceId) (step : String) :
    Spares kept (Checkpoint.get (σ := σ) id step) :=
  fun d => Checkpoint.keeps_get (hstore.spares (.findPair id step) trivial d)

/-- Adding up counts changes nothing. -/
theorem Partition.spares_totals (root : ExecutionId) (step : String) :
    Spares kept (Partition.totals (σ := σ) root step) :=
  fun d => Partition.keeps_totals (hstore.spares (.instanceOf root) trivial d) fun id =>
    hstore.spares (.partitionMetrics id step) trivial d

/-- The step name is checked before a pair is replaced. -/
theorem Checkpoint.atomic_update (id : InstanceId) (step : String) (pair : CheckpointPair) :
    Atomic kept (Checkpoint.update (σ := σ) id step pair) :=
  .bind_of_spares (fun _ => keeps_ensureStepName step) fun _ =>
    .bind_of_answers (hstore.atomic (.updatePair id step pair)) fun _ => .report _

/-- A pair is created, or that fails and is made up for, and is looked up then. -/
theorem Checkpoint.createThenGet_fails_in_place {id : InstanceId} {step : String} {t : σ}
    {handler : LedgerError → Action LedgerError σ Unit} (hhandler : ∀ e, Spares kept (handler e))
    (hname : (ensureStepName step : Action LedgerError σ Unit) = answer ())
    (hfinds : (perform (.createPair id step) t).answer = .ok () → ∃ pair,
      (perform (.findPair id step) (perform (.createPair id step) t).state).answer =
        .ok (some pair))
    {e : LedgerError}
    (he : ((orElse (create id step) handler >>= fun _ => get id step) t).answer = .error e) :
    kept ((orElse (create id step) handler >>= fun _ => get id step) t).state = kept t := by
  have hspares := spares_get hstore id step
  cases hcreated : (create id step t).answer with
  | error e' =>
    have hsame : kept (orElse (create id step) handler t).state = kept t := by
      rw [(orElse_error hcreated handler).2, (hhandler e').apply,
        atomic_create hstore id step t e' hcreated]
    cases hanswer : (orElse (create id step) handler t).answer with
    | error e'' => rw [(bind_error hanswer _).2, hsame]
    | ok u => rw [(bind_ok hanswer _).2, hspares.apply, hsame]
  -- What was created is found, so that there is no error.
  | ok u =>
    obtain ⟨hanswer, hstate⟩ := orElse_ok hcreated handler
    have hcreate : (create id step : Action LedgerError σ Unit) =
        (perform (.createPair id step) >>= fun _ => report (.checkpointPairCreated id step)) :=
      ensureStepName_bind hname
    have hget : (get id step : Action LedgerError σ CheckpointPair) =
        (perform (.findPair id step) >>= ofOption ⟨.notFound, .checkpointPair id step⟩) :=
      ensureStepName_bind hname
    rw [hcreate] at hcreated
    obtain ⟨u', hcall, -, hafter⟩ := bind_eq_ok hcreated
    rw [← hcreate] at hafter
    obtain ⟨pair, hpair⟩ := hfinds hcall
    have hfound := (bind_ok hpair (ofOption ⟨.notFound, .checkpointPair id step⟩)).1
    rw [(bind_ok hanswer _).1, hstate, hafter, hget] at he
    exact nomatch he.symm.trans hfound

/-- Making sure of a pair fails in place where a pair that is created is found. -/
theorem Checkpoint.ensure_fails_in_place {id : InstanceId} {step : String} {s : σ}
    (hfinds : FindsCreated id step s) {e : LedgerError}
    (he : (Checkpoint.ensure id step s).answer = .error e) :
    kept (Checkpoint.ensure id step s).state = kept s := by
  rcases ensureStepName_cases step with hname | ⟨fault, hfault⟩
  · rw [Checkpoint.ensure, ensureStepName_bind (hname σ)] at he ⊢
    have hlooked := (hstore.spares (.findPair id step) trivial).apply s
    cases hfound : (perform (.findPair id step) s).answer with
    | error e' =>
      rw [(bind_error hfound _).2]
      exact hlooked
    | ok found =>
      rw [(bind_ok hfound _).1] at he
      rw [(bind_ok hfound _).2]
      cases found with
      | some pair => exact nomatch he
      | none =>
        have hhandler (e : LedgerError) : Spares kept
            (if e.kind = .alreadyExists then answer () else fail e : Action LedgerError σ Unit) := by
          intro d
          split
          · exact Keeps.answer ()
          · exact Keeps.fail e
        rw [← hlooked]
        exact createThenGet_fails_in_place hstore hhandler (hname σ) (hfinds hfound) he
  · rw [Checkpoint.ensure, hfault σ] at he ⊢
    exact congrArg kept (bind_error rfl _).2

/-- Operations fail in place. -/
theorem Operation.atomic_perform {operation : Operation} (hsingle : ¬ operation.IsSeries)
    (hensured : operation.ensured? = none) :
    Atomic kept (operation.perform : Action LedgerError σ operation.Answer) := by
  cases operation with
  | call call => exact hstore.atomic call
  | createJobStatus id => exact (hstore.atomic (.createJobStatus id)).reported
  | createStepStatus id => exact (hstore.atomic (.createStepStatus id)).reported
  | incrementStartCount id => exact (hstore.atomic (.incrementStartCount id)).reported
  | jobStatus id => exact .of_spares (Tracker.spares_jobStatus hstore id)
  | jobStatusOf id =>
    exact .of_spares fun d =>
      (hstore.spares (.jobStatusOf id) trivial d).bind fun _ => .ofOption _ _
  | updateJobStatus status =>
    exact .bind_of_spares (Tracker.spares_jobStatus hstore status.instanceId) fun current =>
      .bind_of_answers (Tracker.atomic_moveJobStatus hstore current status) fun _ => .answer _
  | moveJob id transition =>
    have hmove : Atomic kept (Tracker.jobStatus id >>= fun current =>
        (Tracker.moveJobStatus current (transition.apply current) :
          Action LedgerError σ JobStatus)) :=
      .bind_of_spares (Tracker.spares_jobStatus hstore id) fun current =>
        Tracker.atomic_moveJobStatus hstore current _
    simp only [perform, Tracker.moveJob]
    split
    · exact .bind_of_spares (fun _ => keeps_ensureStepName _) fun _ => hmove
    · exact .bind_of_spares (fun _ => Keeps.answer ()) fun _ => hmove
  | stepStatus id step => exact .of_spares (Tracker.spares_stepStatus hstore id step)
  | updateStepStatus id step status =>
    refine .bind_of_spares (Tracker.spares_stepStatus hstore id step) fun current => ?_
    split
    · exact .of_spares fun _ => Keeps.fail _
    · exact .bind_of_spares (fun _ => Tracker.keeps_ensureMove _ _ _) fun _ =>
        .bind_of_answers (hstore.atomic (.updateStepStatus status)) fun _ => .report _
  | createCheckpoint id step => exact Checkpoint.atomic_create hstore id step
  | ensureCheckpoint id step => cases hensured
  | getCheckpoint id step => exact .of_spares (Checkpoint.spares_get hstore id step)
  | updateCheckpoint id step pair => exact Checkpoint.atomic_update hstore id step pair
  | getDecoded reader writer id step =>
    exact .of_spares fun d => (Checkpoint.spares_get hstore id step d).bind fun _ =>
      (Keeps.ofExcept _).bind fun _ => (Keeps.ofExcept _).bind fun _ => .answer _
  | updateEncoded reader writer id step read written =>
    exact .bind_of_spares (fun _ => Keeps.ofExcept _) fun _ =>
      .bind_of_spares (fun _ => Keeps.ofExcept _) fun _ => Checkpoint.atomic_update hstore id step _
  | partitionTotals root step =>
    exact .of_spares (Partition.spares_totals hstore root step)
  | aggregatePartitions root step parent time final =>
    refine .bind_of_spares (Partition.spares_totals hstore root step) fun sum => ?_
    refine .bind_of_spares (hstore.spares (.findStep parent) trivial) fun found => ?_
    refine .bind_of_spares (fun _ => Keeps.ofOption _ _) fun row => ?_
    exact (hstore.atomic (.updateStep parent _)).reported
  | createPartitions root step count appTag => exact absurd trivial hsingle

end Operations

end JobLedger
