import JobLedger.Proofs.Action

/-!
# Where actions lead

From states with a property an action leads to states with another one if it answers, which may
depend on the answer, and to states with a third one if it fails, which may depend on the error.
Actions that follow one another are taken one by one.
-/

namespace JobLedger

namespace Action

variable {ε σ α β : Type}

/-- From a state with `P` the action ends in one with `Q a` if it answers with `a`, and in one with
`E e` if it fails with `e`. -/
def Leads (P : σ → Prop) (x : Action ε σ α) (Q : α → σ → Prop) (E : ε → σ → Prop) : Prop :=
  ∀ s, P s →
    match (x s).answer with
    | .ok a => Q a (x s).state
    | .error e => E e (x s).state

namespace Leads

variable {P : σ → Prop} {Q : α → σ → Prop} {E : ε → σ → Prop}

theorem answer {a : α} (h : ∀ s, P s → Q a s) :
    Leads P (Action.answer a : Action ε σ α) Q E := h

theorem fail {e : ε} (h : ∀ s, P s → E e s) : Leads P (Action.fail e : Action ε σ α) Q E := h

theorem report {event : Event} {Q : Unit → σ → Prop} (h : ∀ s, P s → Q () s) :
    Leads P (Action.report event : Action ε σ Unit) Q E := h

/-- Where something may be missing, both outcomes are followed. -/
theorem ofOption {e : ε} {found : Option α} (hsome : ∀ a, found = some a → ∀ s, P s → Q a s)
    (hnone : found = none → ∀ s, P s → E e s) :
    Leads P (Action.ofOption e found : Action ε σ α) Q E := by
  cases found with
  | none => exact fail (hnone rfl)
  | some a => exact answer (hsome a rfl)

/-- A sequence leads where its second part leads from where the first one does. -/
theorem bind {R : α → σ → Prop} {Q : β → σ → Prop} {x : Action ε σ α} {f : α → Action ε σ β}
    (hx : Leads P x R E) (hf : ∀ a, Leads (R a) (f a) Q E) : Leads P (x >>= f) Q E := by
  intro s hs
  have hfirst := hx s hs
  cases ha : (x s).answer with
  | error e =>
    rw [(bind_error ha f).1, (bind_error ha f).2]
    rw [ha] at hfirst
    exact hfirst
  | ok a =>
    rw [(bind_ok ha f).1, (bind_ok ha f).2]
    rw [ha] at hfirst
    exact hf a _ hfirst

/-- What does not depend on the state is known apart from it. -/
theorem of_and {p : Prop} {x : Action ε σ α} (h : p → Leads P x Q E) :
    Leads (fun s => P s ∧ p) x Q E :=
  fun s hs => h hs.2 s hs.1

/-- What is kept holds behind answers and behind errors. -/
theorem of_keeps {x : Action ε σ α} (h : Keeps P x) : Leads P x (fun _ => P) fun _ => P := by
  intro s hs
  have hstate := h s hs
  cases (x s).answer with
  | ok a => exact hstate
  | error e => exact hstate

/-- What holds behind answers and behind errors is kept. -/
theorem keeps {x : Action ε σ α} (h : Leads P x (fun _ => P) fun _ => P) : Keeps P x := by
  intro s hs
  have hresult := h s hs
  cases ha : (x s).answer with
  | ok a =>
    rw [ha] at hresult
    exact hresult
  | error e =>
    rw [ha] at hresult
    exact hresult

end Leads

end Action

end JobLedger
