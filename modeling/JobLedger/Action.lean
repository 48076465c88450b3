import JobLedger.Event

/-!
# Actions

An action runs on a state. It answers or fails, leaves a state behind in both cases, and reports
events. Actions follow one another as long as none fails; the state and the events of all that ran
are kept.
-/

namespace JobLedger

/-- What an action leaves behind. -/
structure Outcome (ε σ α : Type) where
  /-- The answer, or the error. -/
  answer : Except ε α
  /-- The state afterwards. -/
  state : σ
  /-- The events reported, in order. -/
  events : List Event

/-- An action with errors `ε` on states `σ` that answers with an `α`. -/
def Action (ε σ α : Type) : Type := σ → Outcome ε σ α

namespace Action

variable {ε ε' σ τ α β : Type}

/-- Answers without touching the state. -/
def answer (a : α) : Action ε σ α := fun s => ⟨.ok a, s, []⟩

/-- Fails without touching the state. -/
def fail (e : ε) : Action ε σ α := fun s => ⟨.error e, s, []⟩

/-- One action, and another one that depends on its answer. -/
def andThen (x : Action ε σ α) (f : α → Action ε σ β) : Action ε σ β := fun s =>
  match x s with
  | ⟨.ok a, t, events⟩ =>
    let next := f a t
    ⟨next.answer, next.state, events ++ next.events⟩
  | ⟨.error e, t, events⟩ => ⟨.error e, t, events⟩

instance : Monad (Action ε σ) where
  pure := answer
  bind := andThen

/-- Reports an event. -/
def report (event : Event) : Action ε σ Unit := fun s => ⟨.ok (), s, [event]⟩

/-- Reports events. -/
def reportAll (events : List Event) : Action ε σ Unit := fun s => ⟨.ok (), s, events⟩

/-- The state. -/
def state : Action ε σ σ := fun s => ⟨.ok s, s, []⟩

/-- Replaces the state. -/
def replace (s : σ) : Action ε σ Unit := fun _ => ⟨.ok (), s, []⟩

/-- Edits the state. -/
def edit (f : σ → σ) : Action ε σ Unit := fun s => ⟨.ok (), f s, []⟩

/-- A given answer or error. -/
def ofExcept (result : Except ε α) : Action ε σ α := fun s => ⟨result, s, []⟩

/-- An answer, or an error where there is none. -/
def ofOption (e : ε) : Option α → Action ε σ α
  | some a => answer a
  | none => fail e

/-- Looks something up in the state. -/
def look (f : σ → Except ε α) : Action ε σ α := fun s => ⟨f s, s, []⟩

/-- Changes the state. A change that fails leaves the state as it was. -/
def change (f : σ → Except ε (α × σ)) : Action ε σ α := fun s =>
  match f s with
  | .ok (a, t) => ⟨.ok a, t, []⟩
  | .error e => ⟨.error e, s, []⟩

/-- The action with its errors put in other terms. -/
def mapError (f : ε → ε') (x : Action ε σ α) : Action ε' σ α := fun s =>
  let outcome := x s
  ⟨outcome.answer.mapError f, outcome.state, outcome.events⟩

/-- An action on a part of a larger state. -/
def within (get : τ → σ) (set : τ → σ → τ) (x : Action ε σ α) : Action ε τ α := fun t =>
  let outcome := x (get t)
  ⟨outcome.answer, set t outcome.state, outcome.events⟩

/-- An action that failed is followed by another one that depends on the error. -/
def orElse (x : Action ε σ α) (f : ε → Action ε σ α) : Action ε σ α := fun s =>
  match x s with
  | ⟨.ok a, t, events⟩ => ⟨.ok a, t, events⟩
  | ⟨.error e, t, events⟩ =>
    let next := f e t
    ⟨next.answer, next.state, events ++ next.events⟩

@[simp] theorem answer_apply (a : α) (s : σ) :
    (answer a : Action ε σ α) s = ⟨.ok a, s, []⟩ := rfl

@[simp] theorem fail_apply (e : ε) (s : σ) :
    (fail e : Action ε σ α) s = ⟨.error e, s, []⟩ := rfl

theorem bind_apply (x : Action ε σ α) (f : α → Action ε σ β) (s : σ) :
    (x >>= f) s = match x s with
      | ⟨.ok a, t, events⟩ =>
        ⟨(f a t).answer, (f a t).state, events ++ (f a t).events⟩
      | ⟨.error e, t, events⟩ => ⟨.error e, t, events⟩ := rfl

end Action

end JobLedger
