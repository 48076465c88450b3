import JobLedger.Proofs.Operation

/-!
# What belongs to an instance

An instance has a share in a store: itself, its executions and their step executions, and what is kept
under them, its status records and its restart tokens. An operation stays in a share if it is
addressed to nothing else, and adds no row to the history.
-/

namespace JobLedger

/-- An instance with the numbers of its executions and step executions. -/
structure Share where
  id : InstanceId
  executions : ExecutionId → Bool
  steps : StepId → Bool

namespace Share

section Store

variable {σ : Type} [LedgerStore σ] (s : σ)

/-- The instance of an execution that a store finds. -/
def ownerOf? (execution : ExecutionId) : Option InstanceId :=
  (perform (.findExecution execution) s).answer.toOption.join.map JobExecution.instanceId

/-- The instance of a step execution that a store finds. -/
def ownerOfStep? (step : StepId) : Option InstanceId :=
  (perform (.findStep step) s).answer.toOption.join.bind fun row => ownerOf? s row.executionId

/-- The share of an instance in a store. -/
def of (id : InstanceId) : Share where
  id := id
  executions execution := ownerOf? s execution = some id
  steps step := ownerOfStep? s step = some id

end Store

/-- Two shares have nothing in common. -/
structure Apart (share other : Share) : Prop where
  id_ne : share.id ≠ other.id
  executions {execution : ExecutionId} :
    share.executions execution = true → other.executions execution = false
  steps {step : StepId} : share.steps step = true → other.steps step = false

/-- Different instances have nothing in common. -/
theorem apart_of {σ : Type} [LedgerStore σ] (s : σ) {id other : InstanceId} (hne : id ≠ other) :
    (of s id).Apart (of s other) where
  id_ne := hne
  executions h := decide_eq_false fun h' =>
    hne (Option.some.inj ((of_decide_eq_true h).symm.trans h'))
  steps h := decide_eq_false fun h' =>
    hne (Option.some.inj ((of_decide_eq_true h).symm.trans h'))

end Share

/-- A call on the status, the times, the counts or the tokens of what is in a share. -/
def Call.StaysIn (share : Share) : Call → Prop
  | .markStarted id _ | .setExecutionStatus id _ _ | .finalizeExecution id _ _ _ | .jobStatusOf id =>
    share.executions id = true
  | .updateStep id _ | .createStepStatus id | .incrementStartCount id => share.steps id = true
  | .updateStepStatus status => share.steps status.statusId = true
  | .updateJobStatus status => status.instanceId = share.id
  | .createJobStatus id | .findJobStatus id | .findStepStatus id _ | .createPair id _ | .findPair id _
  | .updatePair id _ _ => id = share.id
  | _ => False

/-- An operation makes calls on what is in a share only. A transition stores the record that it finds,
which is that of the instance. -/
def Operation.StaysIn (share : Share) : Operation → Prop
  | .moveJob id _ => id = share.id
  | operation => ∀ call, operation.Makes call → call.StaysIn share

/-- Operations one after the other, each with the instance that it is addressed to. -/
abbrev Work := List (InstanceId × Operation)

namespace Work

/-- The operations that are addressed to an instance, in their order. -/
def of (id : InstanceId) (work : Work) : List Operation :=
  (work.filter fun entry => entry.1 = id).map Prod.snd

/-- An operation on an instance is its next one. -/
theorem of_cons_same (id : InstanceId) (operation : Operation) (rest : Work) :
    of id ((id, operation) :: rest) = operation :: rest.of id := by
  rw [of, List.filter_cons_of_pos (by simp), List.map_cons, of]

/-- An operation on another instance is none of its own. -/
theorem of_cons_other {id other : InstanceId} (hne : other ≠ id) (operation : Operation)
    (rest : Work) : of id ((other, operation) :: rest) = rest.of id := by
  rw [of, List.filter_cons_of_neg (by simpa using hne), of]

/-- The operations of an instance are those that work does on it. -/
theorem mem_of {id : InstanceId} {operation : Operation} {work : Work} :
    operation ∈ work.of id ↔ (id, operation) ∈ work := by
  simp [of]

/-- The work interleaves sequences of operations, one for each instance. -/
def Interleaves (work : Work) (sequences : InstanceId → List Operation) : Prop :=
  ∀ id, work.of id = sequences id

variable {σ : Type} [LedgerStore σ]

/-- The state after the operations. -/
def run (s : σ) (work : Work) : σ := Operation.run s (work.map Prod.snd)

/-- What the operations are answered that are addressed to an instance, each with its operation. -/
def answers (id : InstanceId) (s : σ) :
    Work → List (Σ operation : Operation, Except LedgerError operation.Answer)
  | [] => []
  | entry :: rest =>
    let later := answers id (entry.2.next s) rest
    if entry.1 = id then ⟨entry.2, (entry.2.perform s).answer⟩ :: later else later

end Work

/-- What operations are answered one after the other, each with its operation. -/
def Operation.answers {σ : Type} [LedgerStore σ] (s : σ) :
    List Operation → List (Σ operation : Operation, Except LedgerError operation.Answer)
  | [] => []
  | operation :: rest =>
    ⟨operation, (operation.perform s).answer⟩ :: answers (operation.next s) rest

end JobLedger
