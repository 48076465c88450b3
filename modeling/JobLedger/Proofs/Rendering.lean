import Mathlib.Data.List.Forall2
import JobLedger.CommandLine.Command
import JobLedger.Proofs.Durable.Atomic
import JobLedger.Proofs.Json.Records

/-!
# What commands print

A command asks a store for something, and renders what the store answers as one JSON value. A list
of instances is made of several answers, all of which have to be there. Whatever is rendered, every
part of it has a form of its own, so that it is read back from the text that is printed. A command
writes when it has all the answers, so that one that fails has written nothing.
-/

namespace JobLedger

open JobLedger.Action Json

/-- The forms of the values of a type have no part that is `other`. -/
class PlainForm (α : Type) [JsonForm α] : Prop where
  plain (a : α) : (toJson a).Plain

instance {α : Type} [JsonForm α] [LawfulForm α] : PlainForm α := ⟨plain_toJson⟩

instance : PlainForm Nat := ⟨fun _ => by simp [toJson, Value.Plain]⟩

instance {α : Type} [JsonForm α] [PlainForm α] : PlainForm (List α) where
  plain items := by
    simp only [toJson, Value.Plain]
    induction items with
    | nil => rw [List.map_nil, Value.PlainItems]; trivial
    | cons item items ih => exact ⟨PlainForm.plain item, ih⟩

instance : PlainForm JobInstance := ⟨fun _ => plain_object (by simp [plain_toJson, plain_option])⟩

instance : PlainForm JobExecution := ⟨fun _ => plain_object (by simp [plain_toJson, plain_option])⟩

instance : PlainForm StepMetrics where
  plain m := by
    refine plain_object fun member hmember => ?_
    obtain ⟨count, -, hcount⟩ := List.mem_map.mp (List.of_mem_zip hmember).2
    rw [← hcount]
    exact plain_toJson count

instance : PlainForm StepExecution where
  plain s := plain_object (by simp [plain_toJson, plain_option, PlainForm.plain s.metrics])

instance : PlainForm CheckpointPair := ⟨fun _ => plain_object (by simp [plain_option])⟩

instance : PlainForm PurgeSummary := ⟨fun _ => plain_object (by simp [PlainForm.plain])⟩

namespace Command

section Store

variable {σ : Type} [LedgerStore σ]

/-- A value is the rendering of what a store answers to the calls that a command is about, all of them
made at one state. -/
def Renders (s : σ) : Command → Value → Prop
  | instances none _ _ _, value => ∃ entries, (LedgerStore.perform .externalInstances s).answer =
      .ok entries ∧ value = .array (entries.map fun entry =>
        .object [("id", toJson entry.1), ("name", .text entry.2)])
  | instances (some name) appTag start count, value => ∃ total ids instances,
      (LedgerStore.perform (.countInstances name appTag) s).answer = .ok total ∧
      (LedgerStore.perform (.pageInstances name appTag start count) s).answer = .ok ids ∧
      List.Forall₂ (fun id instance_ =>
        (LedgerStore.perform (.findInstance id) s).answer = .ok (some instance_)) ids instances ∧
      value = .object [("total", toJson total), ("instances", toJson instances)]
  | executions id, value => ∃ rows,
      (LedgerStore.perform (.executionsOf id) s).answer = .ok rows ∧ value = toJson rows
  | execution id, value => ∃ row,
      (LedgerStore.perform (.findExecution id) s).answer = .ok (some row) ∧ value = toJson row
  | steps id, value => ∃ rows,
      (LedgerStore.perform (.stepsOf id) s).answer = .ok rows ∧ value = toJson rows
  | recentSteps id, value => ∃ rows,
      (LedgerStore.perform (.recentSteps id) s).answer = .ok rows ∧ value = toJson rows
  | running jobName, value => ∃ ids,
      (LedgerStore.perform (.runningExecutions jobName) s).answer = .ok ids ∧ value = toJson ids
  | jobStatus id, value => ∃ status,
      (LedgerStore.perform (.findJobStatus id) s).answer = .ok (some status) ∧ value = toJson status
  | stepStatus id step, value => ∃ status,
      (LedgerStore.perform (.findStepStatus id step) s).answer = .ok (some status) ∧
        value = toJson status
  | checkpoint id step, value => ∃ pair,
      (LedgerStore.perform (.findPair id step) s).answer = .ok (some pair) ∧ value = toJson pair
  | purge appTag, value => ∃ summary,
      (LedgerStore.perform (.purge appTag) s).answer = .ok summary ∧ value = toJson summary
  | readiness, value => (LedgerStore.perform .readiness s).answer = .ok () ∧
      value = .object [("status", .text "ready")]

/-- What is rendered has no part that is `other`. -/
theorem Renders.plain {s : σ} {c : Command} {value : Value} (h : c.Renders s value) :
    value.Plain := by
  cases c with
  | instances name appTag start count =>
    cases name with
    | none =>
      obtain ⟨entries, -, rfl⟩ := h
      rw [Value.Plain]
      induction entries with
      | nil => rw [List.map_nil, Value.PlainItems]; trivial
      | cons entry entries ih =>
        refine ⟨plain_object ?_, ih⟩
        simp [plain_toJson, Value.Plain]
    | some name =>
      obtain ⟨total, ids, instances, -, -, -, rfl⟩ := h
      exact plain_object (by simp [PlainForm.plain])
  | executions | steps | recentSteps | running | execution | jobStatus | stepStatus | checkpoint
  | purge =>
    obtain ⟨answer, -, rfl⟩ := h
    exact PlainForm.plain answer
  | readiness =>
    obtain ⟨-, rfl⟩ := h
    exact plain_object (by simp [Value.Plain])

/-- Instances are found if the first one is, and the others are found behind it. -/
theorem findEach_eq_ok {id : InstanceId} {rest : List InstanceId} {s : σ}
    {instances : List JobInstance} (h : (findEach (id :: rest) s).answer = .ok instances) :
    ∃ first others, (LedgerStore.perform (.findInstance id) s).answer = .ok (some first) ∧
      (findEach rest (LedgerStore.perform (.findInstance id) s).state).answer = .ok others ∧
      instances = first :: others := by
  rw [findEach] at h
  obtain ⟨found, hfound, h, -⟩ := bind_eq_ok h
  cases found with
  | none => exact nomatch h
  | some first =>
    obtain ⟨_, hfirst, h, -⟩ := bind_eq_ok h
    obtain rfl := Except.ok.inj hfirst
    obtain ⟨others, hothers, h, -⟩ := bind_eq_ok h
    exact ⟨first, others, hfound, hothers, (Except.ok.inj h).symm⟩

end Store

end Command

namespace Console

variable {ε σ α : Type} {P : σ → Prop}

/-- An action that writes nothing leaves the standard output. -/
theorem spares_quietly (x : Action ε σ α) : Spares output (quietly x) := fun _ _ h => h

/-- What is kept beside the standard output is kept by an action that does not look at it. -/
theorem keeps_quietly {x : Action ε σ α} (h : Keeps P x) :
    Keeps (fun c : Console σ => P c.inner) (quietly x) := fun c hc => h c.inner hc

/-- Writing changes nothing beside the standard output. -/
theorem keeps_writeJson (value : Value) :
    Keeps (fun c : Console σ => P c.inner) (writeJson value : Action ε (Console σ) Unit) :=
  fun _ h => h

/-- Writing is the last thing that a command does, and it does not fail. -/
theorem atomic_writeJson {form : α → Value} {x : Action ε (Console σ) α} (h : Spares output x) :
    Atomic output (x >>= fun a => writeJson (form a)) :=
  .bind_of_spares h fun _ => .of_answers (.edit _)

section Store

variable [LedgerStore σ]

/-- A store beside a standard output answers as it would alone. -/
theorem answer_call (call : Call) (c : Console σ) :
    (LedgerStore.perform call c).answer = (LedgerStore.perform call c.inner).answer := rfl

/-- A store beside a standard output is left as it would be alone. -/
theorem inner_call (call : Call) (c : Console σ) :
    (LedgerStore.perform call c).state.inner = (LedgerStore.perform call c.inner).state := rfl

/-- A store leaves the standard output beside it. -/
theorem output_call (call : Call) (c : Console σ) :
    (LedgerStore.perform call c).state.output = c.output := rfl

/-- A store does not write. -/
theorem spares_call (call : Call) :
    Spares output (LedgerStore.perform call : Action LedgerError (Console σ) call.Answer) :=
  spares_quietly _

end Store

/-- What is written in the end is what was answered before. -/
theorem output_of_writeJson {form : α → Value} {x : Action ε (Console σ) α} {c : Console σ}
    (hx : Spares output x) (h : ((x >>= fun a => writeJson (form a)) c).answer = .ok ()) :
    ∃ a, (x c).answer = .ok a ∧ ((x >>= fun a => writeJson (form a)) c).state.output =
      c.output ++ ((form a).pretty ++ "\n") := by
  obtain ⟨a, ha, -, hstate⟩ := bind_eq_ok h
  have hwritten : (writeJson (form a) (x c).state : Outcome ε (Console σ) Unit).state.output =
      (x c).state.output ++ ((form a).pretty ++ "\n") := rfl
  exact ⟨a, ha, by rw [hstate, hwritten, hx.apply]⟩

end Console

namespace Command

open Console

section Looking

variable {σ : Type} [LedgerStore σ] {P : σ → Prop}
  (hcalls : ∀ call : Call, call.IsQuery → Keeps P (LedgerStore.perform call))

include hcalls

/-- Looking up instances one by one keeps what queries keep. -/
theorem keeps_findEach (ids : List InstanceId) : Keeps P (findEach ids) := by
  induction ids with
  | nil => exact Keeps.answer _
  | cons id rest ih =>
    exact (hcalls (.findInstance id) trivial).bind fun _ => (Keeps.ofOption _ _).bind fun _ =>
      ih.bind fun _ => Keeps.answer _

end Looking

variable {σ : Type} [LedgerStore σ]

/-- A command that fails has written nothing. -/
theorem atomic_perform (c : Command) :
    Atomic output (c.perform : Action LedgerError (Console σ) Unit) := by
  cases c with
  | instances name appTag start count =>
    cases name with
    | none => exact atomic_writeJson (spares_call .externalInstances)
    | some name =>
      -- The instances are looked up one by one, and written together.
      exact .bind_of_spares (spares_call (.countInstances name appTag)) fun _ =>
        .bind_of_spares (spares_call (.pageInstances name appTag start count)) fun ids =>
          atomic_writeJson fun d => keeps_findEach (fun call _ => spares_call call d) ids
  | executions id => exact atomic_writeJson (spares_call (.executionsOf id))
  | execution id =>
    exact .bind_of_spares (spares_call (.findExecution id)) fun found =>
      atomic_writeJson fun _ => Keeps.ofOption _ found
  | steps id => exact atomic_writeJson (spares_call (.stepsOf id))
  | recentSteps id => exact atomic_writeJson (spares_call (.recentSteps id))
  | running jobName => exact atomic_writeJson (spares_call (.runningExecutions jobName))
  | jobStatus id =>
    exact atomic_writeJson fun d => Tracker.keeps_jobStatus (spares_call (.findJobStatus id) d)
  | stepStatus id step =>
    exact atomic_writeJson fun d =>
      Tracker.keeps_stepStatus (spares_call (.findStepStatus id step) d)
  | checkpoint id step =>
    exact atomic_writeJson fun d => Checkpoint.keeps_get (spares_call (.findPair id step) d)
  | purge appTag => exact atomic_writeJson (spares_call (.purge appTag))
  | readiness => exact atomic_writeJson (spares_call .readiness)

/-! ## Commands that only look -/

/-- A command changes the ledger. -/
def Purges : Command → Prop
  | purge _ => True
  | _ => False

/-- A command that does not purge keeps what queries keep. -/
theorem keeps_perform {P : σ → Prop}
    (hcalls : ∀ call : Call, call.IsQuery → Keeps P (LedgerStore.perform call)) {c : Command}
    (hc : ¬ c.Purges) : Keeps (fun console : Console σ => P console.inner) (perform c) := by
  have hconsole (call : Call) (hquery : call.IsQuery) :
      Keeps (fun console : Console σ => P console.inner) (LedgerStore.perform call) :=
    keeps_quietly (hcalls call hquery)
  have hquery (call : Call) (hquery : call.IsQuery) {form : call.Answer → Value} :
      Keeps (fun console : Console σ => P console.inner)
        (LedgerStore.perform call >>= fun a => writeJson (form a)) :=
    (hconsole call hquery).bind fun _ => keeps_writeJson _
  cases c with
  | instances name appTag start count =>
    cases name with
    | none => exact hquery .externalInstances trivial
    | some name =>
      exact (hconsole (.countInstances name appTag) trivial).bind fun _ =>
        (hconsole (.pageInstances name appTag start count) trivial).bind fun _ =>
          (keeps_findEach hconsole _).bind fun _ => keeps_writeJson _
  | executions id => exact hquery (.executionsOf id) trivial
  | execution id =>
    exact (hconsole (.findExecution id) trivial).bind fun _ => (Keeps.ofOption _ _).bind fun _ =>
      keeps_writeJson _
  | steps id => exact hquery (.stepsOf id) trivial
  | recentSteps id => exact hquery (.recentSteps id) trivial
  | running jobName => exact hquery (.runningExecutions jobName) trivial
  | jobStatus id =>
    exact (Tracker.keeps_jobStatus (hconsole (.findJobStatus id) trivial)).bind fun _ =>
      keeps_writeJson _
  | stepStatus id step =>
    exact (Tracker.keeps_stepStatus (hconsole (.findStepStatus id step) trivial)).bind fun _ =>
      keeps_writeJson _
  | checkpoint id step =>
    exact (Checkpoint.keeps_get (hconsole (.findPair id step) trivial)).bind fun _ =>
      keeps_writeJson _
  | purge appTag => exact absurd trivial hc
  | readiness => exact hquery .readiness trivial

end Command

end JobLedger
