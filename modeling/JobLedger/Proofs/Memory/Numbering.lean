import JobLedger.Proofs.Memory.HistorySteps

/-!
# Numbers that a ledger gives out

The counter of a kind stands at the number of successful creations of the kind, and each of them was
answered with the number it made the counter stand at. Failures, purges and all other calls leave the
counters alone.
-/

namespace JobLedger.Memory

/-- Rows were given the numbers from one to a last one, one after the other. -/
def CountsTo {ρ : Type} {entity : Entity} (key : ρ → Id entity) (made : List ρ) (last : Nat) : Prop :=
  made.map (fun row => (key row).number) = List.range' 1 last

namespace CountsTo

variable {ρ : Type} {entity : Entity} {key : ρ → Id entity} {made : List ρ} {last : Nat}

/-- The next number goes to the next row. -/
theorem append (h : CountsTo key made last) {row : ρ} (hrow : (key row).number = last + 1) :
    CountsTo key (made ++ [row]) (last + 1) := by
  rw [CountsTo, List.map_append, h, List.range'_1_concat, List.map_singleton, hrow, Nat.add_comm]

/-- Rows that count up are in the order of their numbers. -/
theorem sorted (h : CountsTo key made last) : SortedIds key made := by
  have hlt : (made.map fun row => (key row).number).Pairwise (· < ·) := by
    rw [h]
    exact List.pairwise_lt_range'
  exact List.pairwise_map.mp hlt

/-- The n-th row has the number n. -/
theorem countsUp (h : CountsTo key made last) : CountsUp (made.map key) := by
  intro n id hid
  rw [List.getElem?_map] at hid
  obtain ⟨row, hrow, rfl⟩ := Option.map_eq_some_iff.mp hid
  have hnumber : (made.map fun row => (key row).number)[n]? = some (key row).number := by
    rw [List.getElem?_map, hrow]
    rfl
  rw [h] at hnumber
  obtain ⟨hlt, heq⟩ := List.getElem?_eq_some_iff.mp hnumber
  rw [List.getElem_range'] at heq
  omega

end CountsTo

/-- The counters of a ledger stand where the creations of a log have brought them. -/
structure Numbers (m : Memory) (log : CallLog) : Prop where
  instances : CountsTo JobInstance.id log.instances m.lastInstance
  executions : CountsTo ExecutionStart.id log.executions m.lastExecution
  steps : CountsTo StepStart.id log.steps m.lastStep

namespace Numbers

variable {m : Memory} {log : CallLog} (h : m.Numbers log)

/-- Nothing was given a number yet. -/
theorem empty : Memory.empty.Numbers [] := ⟨rfl, rfl, rfl⟩

include h

/-- Numbers that follow a log are those of the n-th creations in it. -/
theorem isNumbered : log.IsNumbered :=
  ⟨h.instances.countsUp, h.executions.countsUp, h.steps.countsUp⟩

/-- A call that creates no instance gives out no number for one. -/
theorem keep_instances {success : Success} (hnone : success.instance? = none) :
    CountsTo JobInstance.id (CallLog.instances (log ++ [success])) m.lastInstance := by
  rw [CallLog.instances_of_none hnone]
  exact h.instances

/-- A call that creates an instance gives it the next number. -/
theorem add_instance {success : Success} {i : JobInstance} (hmade : success.instance? = some i)
    (hid : i.id.number = m.lastInstance + 1) :
    CountsTo JobInstance.id (CallLog.instances (log ++ [success])) i.id.number := by
  rw [CallLog.instances_of_some hmade, hid]
  exact h.instances.append hid

/-- A call that creates no execution gives out no number for one. -/
theorem keep_executions {success : Success} (hnone : success.execution? = none) :
    CountsTo ExecutionStart.id (CallLog.executions (log ++ [success])) m.lastExecution := by
  rw [CallLog.executions_of_none hnone]
  exact h.executions

/-- A call that creates an execution gives it the next number. -/
theorem add_execution {success : Success} {start : ExecutionStart}
    (hmade : success.execution? = some start) (hid : start.id.number = m.lastExecution + 1) :
    CountsTo ExecutionStart.id (CallLog.executions (log ++ [success])) start.id.number := by
  rw [CallLog.executions_of_some hmade, hid]
  exact h.executions.append hid

/-- A call that creates no step execution gives out no number for one. -/
theorem keep_steps {success : Success} (hnone : success.step? = none) :
    CountsTo StepStart.id (CallLog.steps (log ++ [success])) m.lastStep := by
  rw [CallLog.steps_of_none hnone]
  exact h.steps

/-- A call that creates a step execution gives it the next number. -/
theorem add_step {success : Success} {start : StepStart} (hmade : success.step? = some start)
    (hid : start.id.number = m.lastStep + 1) :
    CountsTo StepStart.id (CallLog.steps (log ++ [success])) start.id.number := by
  rw [CallLog.steps_of_some hmade, hid]
  exact h.steps.append hid

/-- What a success does to the history, it does to the counters. -/
theorem step {success : Success} {next : Memory} (hstep : HistoryStep m success next) :
    next.Numbers (log ++ [success]) := by
  cases hstep with
  | @addInstance _ i hmade hid =>
    have hi : success.instance? = some i := by rcases hmade with rfl | ⟨name, rfl⟩ <;> rfl
    have he : success.execution? = none := by rcases hmade with rfl | ⟨name, rfl⟩ <;> rfl
    have hs : success.step? = none := by rcases hmade with rfl | ⟨name, rfl⟩ <;> rfl
    exact ⟨h.add_instance hi hid, h.keep_executions he, h.keep_steps hs⟩
  | @addExecution id i execution parameters status time hi hid =>
    have hmade : Success.execution? ⟨.createExecution id parameters status time, execution⟩ =
        some ⟨execution, id, time, parameters⟩ := rfl
    exact ⟨h.keep_instances rfl, h.add_execution hmade hid, h.keep_steps rfl⟩
  | @addStep id e stepId step metrics time he hid =>
    have hmade : Success.step? ⟨.createStep id step metrics time, stepId⟩ =
        some ⟨stepId, id, step, time⟩ := rfl
    exact ⟨h.keep_instances rfl, h.keep_executions rfl, h.add_step hmade hid⟩
  | quiet hquiet =>
    exact ⟨h.keep_instances hquiet.instance_none, h.keep_executions hquiet.execution_none,
      h.keep_steps hquiet.step_none⟩
  | markStarted | setExecutionStatus | finalizeExecution | updateStep | purge =>
    exact ⟨h.keep_instances rfl, h.keep_executions rfl, h.keep_steps rfl⟩

end Numbers

end JobLedger.Memory
