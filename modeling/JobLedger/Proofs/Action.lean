import JobLedger.Action

/-!
# What actions keep, and how they correspond

An action keeps a property of the state if the property holds afterwards whenever it held before,
whether the action succeeds or not. What every part keeps, a sequence of parts keeps as well. In the
same way sequences of actions on two states correspond if their parts do.
-/

namespace JobLedger

theorem ok_bind {ε α β : Type} (a : α) (f : α → Except ε β) :
    ((.ok a : Except ε α) >>= f) = f a := by
  rfl

/-- A sequence has a result if both parts have one. -/
theorem bind_eq_ok_iff {ε α β : Type} {x : Except ε α} {f : α → Except ε β} {b : β} :
    (x >>= f) = .ok b ↔ ∃ a, x = .ok a ∧ f a = .ok b := by
  cases x with
  | error e => simp [bind, Except.bind]
  | ok a => simp [bind, Except.bind]

/-- Errors put in other terms leave results alone. -/
theorem eq_ok_of_mapError {ε ε' α : Type} {x : Except ε α} {g : ε → ε'} {a : α}
    (h : x.mapError g = .ok a) : x = .ok a := by
  cases x with
  | error e => cases h
  | ok b => exact congrArg Except.ok (Except.ok.inj h)

theorem eq_ok_of_toOption {ε α : Type} {x : Except ε α} {a : α} (h : x.toOption = some a) :
    x = .ok a := by
  cases x with
  | error e => cases h
  | ok b => exact congrArg Except.ok (Option.some.inj h)

namespace Action

variable {ε ε' σ τ α β : Type}

@[simp] theorem look_apply (f : σ → Except ε α) (s : σ) : look f s = ⟨f s, s, []⟩ := rfl

@[simp] theorem ofOption_apply (e : ε) (a : Option α) (s : σ) :
    (ofOption e a : Action ε σ α) s = ⟨a.elim (.error e) .ok, s, []⟩ := by
  cases a <;> rfl

theorem ofExcept_ok_bind (a : α) (f : α → Action ε σ β) :
    (ofExcept (.ok a) >>= f) = f a := rfl

theorem ofExcept_error_bind (e : ε) (f : α → Action ε σ β) :
    (ofExcept (.error e) >>= f) = fail e := rfl

theorem change_ok {f : σ → Except ε (α × σ)} {s t : σ} {a : α} (h : f s = .ok (a, t)) :
    change f s = ⟨.ok a, t, []⟩ := by
  simp only [change, h]

theorem change_error {f : σ → Except ε (α × σ)} {s : σ} {e : ε} (h : f s = .error e) :
    change f s = ⟨.error e, s, []⟩ := by
  simp only [change, h]

/-- Behind an answer, a sequence goes on in the state that was left. -/
theorem bind_ok {x : Action ε σ α} {s : σ} {a : α} (h : (x s).answer = .ok a)
    (f : α → Action ε σ β) :
    ((x >>= f) s).answer = (f a (x s).state).answer ∧
      ((x >>= f) s).state = (f a (x s).state).state := by
  rw [bind_apply]
  cases hx : x s with
  | mk answer state events =>
    rw [hx] at h
    subst h
    exact ⟨rfl, rfl⟩

/-- A sequence goes on where its first part leads to. -/
theorem bind_of_ok {x : Action ε σ α} {s t : σ} {a : α} (h : x s = ⟨.ok a, t, []⟩)
    (f : α → Action ε σ β) : (x >>= f) s = f a t := by
  rw [bind_apply, h]
  rfl

/-- A sequence ends where its first part fails, with the state that this leaves. -/
theorem bind_of_error {x : Action ε σ α} {s t : σ} {e : ε} {events : List Event}
    (h : x s = ⟨.error e, t, events⟩) (f : α → Action ε σ β) :
    (x >>= f) s = ⟨.error e, t, events⟩ := by
  rw [bind_apply, h]

theorem edit_bind (g : σ → σ) (f : Unit → Action ε σ β) (s : σ) :
    (edit g >>= f) s = f () (g s) := rfl

theorem state_bind (f : σ → Action ε σ β) (s : σ) : (state >>= f) s = f s s := rfl

/-- A sequence answers as its second part does where the first one leads to. -/
theorem answer_bind {x : Action ε σ α} {s t : σ} {a : α} {events : List Event}
    (h : x s = ⟨.ok a, t, events⟩) (f : α → Action ε σ β) :
    ((x >>= f) s).answer = (f a t).answer := by
  rw [bind_apply, h]

/-- A sequence that only looks something up first answers as its second part does. -/
theorem answer_look_bind {f : σ → Except ε α} {s : σ} {a : α} (h : f s = .ok a)
    (g : α → Action ε σ β) : ((look f >>= g) s).answer = (g a s).answer :=
  answer_bind (by rw [look_apply, h]) g

/-- Behind an error, a sequence is over. -/
theorem bind_error {x : Action ε σ α} {s : σ} {e : ε} (h : (x s).answer = .error e)
    (f : α → Action ε σ β) :
    ((x >>= f) s).answer = .error e ∧ ((x >>= f) s).state = (x s).state := by
  rw [bind_apply]
  cases hx : x s with
  | mk answer state events =>
    rw [hx] at h
    subst h
    exact ⟨rfl, rfl⟩

/-- What is made of an answer in the end is made of the answer only. -/
theorem bind_answer (x : Action ε σ α) (f : α → β) (s : σ) :
    ((x >>= fun a => answer (f a)) s).answer = (x s).answer.map f ∧
      ((x >>= fun a => answer (f a)) s).state = (x s).state := by
  cases h : (x s).answer with
  | error e => exact bind_error h _
  | ok a => exact bind_ok h _

/-- A sequence that answers consists of actions that answer. -/
theorem bind_eq_ok {x : Action ε σ α} {f : α → Action ε σ β} {s : σ} {b : β}
    (h : ((x >>= f) s).answer = .ok b) :
    ∃ a, (x s).answer = .ok a ∧ (f a (x s).state).answer = .ok b ∧
      ((x >>= f) s).state = (f a (x s).state).state := by
  cases hx : (x s).answer with
  | error e =>
    rw [(bind_error hx f).1] at h
    exact nomatch h
  | ok a =>
    obtain ⟨hanswer, hstate⟩ := bind_ok hx f
    exact ⟨a, rfl, hanswer ▸ h, hstate⟩

/-- What is to follow an error does not follow an answer. -/
theorem orElse_ok {x : Action ε σ α} {s : σ} {a : α} (h : (x s).answer = .ok a)
    (f : ε → Action ε σ α) :
    (x.orElse f s).answer = .ok a ∧ (x.orElse f s).state = (x s).state := by
  rw [orElse]
  cases hx : x s with
  | mk answer state events =>
    rw [hx] at h
    subst h
    exact ⟨rfl, rfl⟩

/-- What follows an error starts in the state that was left behind. -/
theorem orElse_error {x : Action ε σ α} {s : σ} {e : ε} (h : (x s).answer = .error e)
    (f : ε → Action ε σ α) :
    (x.orElse f s).answer = (f e (x s).state).answer ∧
      (x.orElse f s).state = (f e (x s).state).state := by
  rw [orElse]
  cases hx : x s with
  | mk answer state events =>
    rw [hx] at h
    subst h
    exact ⟨rfl, rfl⟩

/-- A change that answers has left its result. -/
theorem change_eq_ok {f : σ → Except ε (α × σ)} {s : σ} {a : α}
    (h : (change f s).answer = .ok a) : f s = .ok (a, (change f s).state) := by
  cases hf : f s with
  | error e =>
    rw [change_error hf] at h
    exact nomatch h
  | ok result =>
    rw [change_ok hf] at h ⊢
    rw [← Except.ok.inj h]

/-- A property of the state holds after the action whenever it held before. -/
def Keeps (P : σ → Prop) (x : Action ε σ α) : Prop := ∀ s, P s → P (x s).state

namespace Keeps

variable {P : σ → Prop}

theorem answer (a : α) : Keeps P (Action.answer a : Action ε σ α) := fun _ h => h

theorem fail (e : ε) : Keeps P (Action.fail e : Action ε σ α) := fun _ h => h

theorem report (event : Event) : Keeps P (Action.report event : Action ε σ Unit) := fun _ h => h

theorem reportAll (events : List Event) :
    Keeps P (Action.reportAll events : Action ε σ Unit) :=
  fun _ h => h

theorem ofExcept (result : Except ε α) : Keeps P (Action.ofExcept result : Action ε σ α) :=
  fun _ h => h

theorem look (f : σ → Except ε α) : Keeps P (Action.look f) := fun _ h => h

theorem state : Keeps P (Action.state : Action ε σ σ) := fun _ h => h

theorem ofOption (e : ε) (a : Option α) : Keeps P (Action.ofOption e a : Action ε σ α) := by
  cases a with
  | none => exact fail e
  | some a => exact answer a

/-- A change keeps what all its results keep. -/
theorem change {f : σ → Except ε (α × σ)}
    (h : ∀ s a t, f s = .ok (a, t) → P s → P t) : Keeps P (Action.change f) := by
  intro s hs
  cases hf : f s with
  | error e => rw [change_error hf]; exact hs
  | ok result =>
    rw [change_ok hf]
    exact h s result.1 result.2 hf hs

/-- What is known of the answer of the first part may be used for the second one. -/
theorem bind_of {A : α → Prop} {x : Action ε σ α} {f : α → Action ε σ β} (hx : Keeps P x)
    (hA : ∀ s a, P s → (x s).answer = .ok a → A a) (hf : ∀ a, A a → Keeps P (f a)) :
    Keeps P (x >>= f) := by
  intro s hs
  cases ha : (x s).answer with
  | error e =>
    rw [(bind_error ha f).2]
    exact hx s hs
  | ok a =>
    rw [(bind_ok ha f).2]
    exact hf a (hA s a hs ha) _ (hx s hs)

/-- A sequence keeps what both its parts keep. -/
theorem bind {x : Action ε σ α} {f : α → Action ε σ β} (hx : Keeps P x)
    (hf : ∀ a, Keeps P (f a)) : Keeps P (x >>= f) :=
  hx.bind_of (A := fun _ => True) (fun _ _ _ _ => trivial) fun a _ => hf a

theorem discard {x : Action ε σ α} (hx : Keeps P x) : Keeps P (discard x) :=
  bind hx fun _ => answer _

/-- Whether the first action fails or not, what both keep is kept. -/
theorem orElse {x : Action ε σ α} {f : ε → Action ε σ α} (hx : Keeps P x)
    (hf : ∀ e, Keeps P (f e)) : Keeps P (x.orElse f) := by
  intro s hs
  cases ha : (x s).answer with
  | ok a =>
    rw [(orElse_ok ha f).2]
    exact hx s hs
  | error e =>
    rw [(orElse_error ha f).2]
    exact hf e _ (hx s hs)

end Keeps

/-- From states that correspond two actions answer alike, and they leave states that correspond. What
they report may differ. -/
def Simulates (R : σ → τ → Prop) (x : Action ε σ α) (y : Action ε τ α) : Prop :=
  ∀ s t, R s t → (x s).answer = (y t).answer ∧ R (x s).state (y t).state

namespace Simulates

variable {R : σ → τ → Prop}

theorem answer (a : α) : Simulates R (Action.answer a : Action ε σ α) (Action.answer a) :=
  fun _ _ h => ⟨rfl, h⟩

theorem fail (e : ε) : Simulates R (Action.fail e : Action ε σ α) (Action.fail e) :=
  fun _ _ h => ⟨rfl, h⟩

theorem report (event : Event) :
    Simulates R (Action.report event : Action ε σ Unit) (Action.report event) :=
  fun _ _ h => ⟨rfl, h⟩

theorem ofExcept (result : Except ε α) :
    Simulates R (Action.ofExcept result : Action ε σ α) (Action.ofExcept result) :=
  fun _ _ h => ⟨rfl, h⟩

theorem ofOption (e : ε) (a : Option α) :
    Simulates R (Action.ofOption e a : Action ε σ α) (Action.ofOption e a) := by
  cases a with
  | none => exact fail e
  | some a => exact answer a

/-- What is known of the answer of the first parts may be used for the second ones. -/
theorem bind_of {A : α → Prop} {x : Action ε σ α} {y : Action ε τ α} {f : α → Action ε σ β}
    {g : α → Action ε τ β} (hxy : Simulates R x y)
    (hA : ∀ s t a, R s t → (y t).answer = .ok a → A a) (hfg : ∀ a, A a → Simulates R (f a) (g a)) :
    Simulates R (x >>= f) (y >>= g) := by
  intro s t h
  obtain ⟨hanswer, hstate⟩ := hxy s t h
  cases hy : (y t).answer with
  | error e =>
    rw [(bind_error (hanswer.trans hy) f).1, (bind_error (hanswer.trans hy) f).2,
      (bind_error hy g).1, (bind_error hy g).2]
    exact ⟨rfl, hstate⟩
  | ok a =>
    rw [(bind_ok (hanswer.trans hy) f).1, (bind_ok (hanswer.trans hy) f).2, (bind_ok hy g).1,
      (bind_ok hy g).2]
    exact hfg a (hA s t a h hy) _ _ hstate

/-- Sequences simulate one another if their parts do. -/
theorem bind {x : Action ε σ α} {y : Action ε τ α} {f : α → Action ε σ β} {g : α → Action ε τ β}
    (hxy : Simulates R x y) (hfg : ∀ a, Simulates R (f a) (g a)) :
    Simulates R (x >>= f) (y >>= g) :=
  hxy.bind_of (A := fun _ => True) (fun _ _ _ _ _ => trivial) fun a _ => hfg a

/-- Simulation goes on if errors are put in other terms on both sides. -/
theorem mapError {g : ε → ε'} {x : Action ε σ α} {y : Action ε τ α} (hxy : Simulates R x y) :
    Simulates R (Action.mapError g x) (Action.mapError g y) := by
  intro s t h
  obtain ⟨hanswer, hstate⟩ := hxy s t h
  exact ⟨congrArg (Except.mapError g) hanswer, hstate⟩

/-- What is reported in the end makes no difference. -/
theorem then_report {x : Action ε σ Unit} {y : Action ε τ Unit} (hxy : Simulates R x y)
    (event : Event) : Simulates R (x >>= fun _ => Action.report event) y := by
  intro s t h
  obtain ⟨hanswer, hstate⟩ := hxy s t h
  cases hx : (x s).answer with
  | error e =>
    rw [(bind_error hx _).1, (bind_error hx _).2, ← hanswer, hx]
    exact ⟨rfl, hstate⟩
  | ok u =>
    rw [(bind_ok hx _).1, (bind_ok hx _).2, ← hanswer, hx]
    exact ⟨rfl, hstate⟩

/-- Both actions fail alike, so that both go on alike behind a failure. -/
theorem orElse {x : Action ε σ α} {y : Action ε τ α} {f : ε → Action ε σ α} {g : ε → Action ε τ α}
    (hxy : Simulates R x y) (hfg : ∀ e, Simulates R (f e) (g e)) :
    Simulates R (x.orElse f) (y.orElse g) := by
  intro s t h
  obtain ⟨hanswer, hstate⟩ := hxy s t h
  cases hy : (y t).answer with
  | ok a =>
    rw [(orElse_ok (hanswer.trans hy) f).1, (orElse_ok (hanswer.trans hy) f).2,
      (orElse_ok hy g).1, (orElse_ok hy g).2]
    exact ⟨rfl, hstate⟩
  | error e =>
    rw [(orElse_error (hanswer.trans hy) f).1, (orElse_error (hanswer.trans hy) f).2,
      (orElse_error hy g).1, (orElse_error hy g).2]
    exact hfg e _ _ hstate

/-- Simulations follow one another. -/
theorem comp {υ : Type} {S : τ → υ → Prop} {x : Action ε σ α} {y : Action ε τ α} {z : Action ε υ α}
    (hxy : Simulates R x y) (hyz : Simulates S y z) :
    Simulates (fun s u => ∃ t, R s t ∧ S t u) x z := by
  rintro s u ⟨t, hs, hu⟩
  obtain ⟨hanswer, hstate⟩ := hxy s t hs
  obtain ⟨hanswer', hstate'⟩ := hyz t u hu
  exact ⟨hanswer.trans hanswer', _, hstate, hstate'⟩

/-- Only answers and states matter. -/
theorem congr {x : Action ε σ α} {y z : Action ε τ α} (hxy : Simulates R x y)
    (hyz : ∀ t, (y t).answer = (z t).answer ∧ (y t).state = (z t).state) : Simulates R x z := by
  intro s t h
  rw [← (hyz t).1, ← (hyz t).2]
  exact hxy s t h

end Simulates

/-- An action fails with errors of a kind only. -/
def FailsOnly (P : ε → Prop) (x : Action ε σ α) : Prop := ∀ s e, (x s).answer = .error e → P e

namespace FailsOnly

variable {P : ε → Prop}

theorem answer (a : α) : FailsOnly P (Action.answer a : Action ε σ α) := fun _ _ h => nomatch h

theorem fail {e : ε} (he : P e) : FailsOnly P (Action.fail e : Action ε σ α) :=
  fun _ _ h => Except.error.inj h ▸ he

theorem ofExcept {result : Except ε α} (h : ∀ e, result = .error e → P e) :
    FailsOnly P (Action.ofExcept result : Action ε σ α) :=
  fun _ e he => h e he

theorem look {f : σ → Except ε α} (h : ∀ s e, f s = .error e → P e) : FailsOnly P (Action.look f) :=
  h

/-- A change fails as its function does. -/
theorem change {f : σ → Except ε (α × σ)} (h : ∀ s e, f s = .error e → P e) :
    FailsOnly P (Action.change f) := by
  intro s e he
  cases hf : f s with
  | error e' =>
    rw [change_error hf] at he
    exact Except.error.inj he ▸ h s e' hf
  | ok result =>
    rw [change_ok hf] at he
    exact nomatch he

/-- A sequence fails as one of its parts does. -/
theorem bind {x : Action ε σ α} {f : α → Action ε σ β} (hx : FailsOnly P x)
    (hf : ∀ a, FailsOnly P (f a)) : FailsOnly P (x >>= f) := by
  intro s e he
  cases ha : (x s).answer with
  | error e' =>
    rw [(bind_error ha f).1] at he
    exact Except.error.inj he ▸ hx s e' ha
  | ok a =>
    rw [(bind_ok ha f).1] at he
    exact hf a _ e he

end FailsOnly

end Action

end JobLedger
