import JobLedger.Proofs.Files.Carrying
import JobLedger.Proofs.Memory.Atomic
import JobLedger.Proofs.Memory.Changes
import JobLedger.Proofs.Memory.PurgeExact
import JobLedger.Proofs.Outcomes

/-!
# Runs of a store that carries a ledger

Either store carries a well-formed ledger in memory along, from the first operation on. What is to be
shown of a run of the store is then shown of what one call can do to that ledger: a property that no
call takes away holds throughout, and one that only a purge takes away holds until a purge.
-/

namespace JobLedger

open JobLedger.Action

/-- A call looks up records under a number that a ledger has given out, or under a name. -/
def Memory.KnowsNumber (m : Memory) : Call → Prop
  | .countInstances .. | .pageInstances .. => True
  | .findInstance id | .recentSteps id | .findJobStatus id | .findStepStatus id _ =>
    id.number ≤ m.lastInstance
  | .findExecution id | .instanceOf id => id.number ≤ m.lastExecution
  | .findStep id => id.number ≤ m.lastStep
  | _ => False

/-- The states of a store that carries a ledger in memory along. -/
structure CarriesLedger {σ : Type} [LedgerStore σ] (Carries : σ → Memory → Prop) : Prop where
  wellFormed {s m} : Carries s m → m.WellFormed
  /-- A call takes effect as on the ledger, or none. -/
  cases {s m} (call) : Carries s m →
    Carries (perform call s).state (perform call m).state ∨ Carries (perform call s).state m
  /-- What a call answers, the ledger answers. -/
  answered {s m} (call) {a : call.Answer} : Carries s m →
    (∀ root step, call ≠ .partitionMetrics root step) → (perform call s).answer = .ok a →
      (perform call m).answer = .ok a ∧ Carries (perform call s).state (perform call m).state
  /-- A call that fails leaves the ledger. -/
  failed {s m} (call) {e} : Carries s m → (perform call s).answer = .error e →
    Carries (perform call s).state m
  /-- Numbers that were given out can be looked up. -/
  lookedUp {s m} (call) : Carries s m → m.KnowsNumber call →
    (perform call s).answer = (perform call m).answer ∧ Carries (perform call s).state m

/-- The ledger in memory is the one that it carries. -/
theorem Memory.carriesLedger : CarriesLedger fun s m : Memory => s = m ∧ m.WellFormed where
  wellFormed h := h.2
  cases call := by
    rintro ⟨rfl, h⟩
    exact .inl ⟨rfl, keeps_wellFormed call _ h⟩
  answered call a := by
    rintro ⟨rfl, h⟩ - hanswer
    exact ⟨hanswer, rfl, keeps_wellFormed call _ h⟩
  failed call e := by
    rintro ⟨rfl, h⟩ hanswer
    exact ⟨atomicStore.atomic call _ e hanswer, h⟩
  lookedUp call := by
    rintro ⟨rfl, h⟩ hknown
    refine ⟨rfl, ?_, h⟩
    cases call <;> first | rfl | exact hknown.elim

/-- What is looked up fits in a row, and looking it up changes nothing. -/
theorem Memory.KnowsNumber.fits {m : Memory} {call : Call} (h : m.KnowsNumber call)
    (hs : m.Storable) : call.Fits ∧ (LedgerStore.perform call m).state = m := by
  have hinstance := hs.lastInstance_lt
  have hexecution := hs.lastExecution_lt
  have hstep := hs.lastStep_lt
  cases call with
  | countInstances | pageInstances => exact ⟨trivial, rfl⟩
  | findInstance id | recentSteps id | findJobStatus id | findStepStatus id _ | findExecution id
  | instanceOf id | findStep id =>
    simp only [KnowsNumber] at h
    refine ⟨?_, rfl⟩
    change (id.number : Int) < signedLimit
    omega
  | _ => exact h.elim

/-- A store in a database carries the ledger that it holds. -/
theorem carriesLedger_of_serves {σ : Type} [KeepsDatabase σ] {Holds : σ → Memory → Prop}
    (hserves : Serves Holds) :
    CarriesLedger fun s m => Holds s m ∧ m.WellFormed ∧ m.Storable where
  wellFormed h := h.2.1
  cases {s m} call h := by
    obtain ⟨hholds, hformed, hstorable⟩ := h
    exact (Database.holds_perform hserves hformed hstorable hholds call).imp
      (fun ⟨hnext, hfits⟩ => ⟨hnext, Memory.keeps_wellFormed call m hformed, hfits⟩)
      fun hsame => ⟨hsame, hformed, hstorable⟩
  answered {s m} call a h hmetrics hanswer := by
    obtain ⟨hholds, hformed, hstorable⟩ := h
    rcases Database.mirrors_perform hserves hformed hstorable hholds call hmetrics with
      hagrees | ⟨hrefuses, -⟩
    · exact ⟨hagrees.answer ▸ hanswer, hagrees.state, Memory.keeps_wellFormed call m hformed,
        hagrees.storable⟩
    · obtain ⟨e, he⟩ := hrefuses.answer
      rw [he] at hanswer
      exact nomatch hanswer
  failed {s m} call e h hanswer := by
    obtain ⟨hholds, hformed, hstorable⟩ := h
    by_cases hmetrics : ∃ root step, call = .partitionMetrics root step
    · obtain ⟨root, step, rfl⟩ := hmetrics
      have hstate := Database.state_loadPartitions hserves hholds root step
      refine ⟨?_, hformed, hstorable⟩
      change Holds (Database.loadPartitions root step s).state m
      rw [hstate]
      exact hserves.turn hholds
    · rcases Database.mirrors_perform hserves hformed hstorable hholds call
        fun root step heq => hmetrics ⟨root, step, heq⟩ with hagrees | ⟨hrefuses, -⟩
      · have hsame := Memory.atomicStore.atomic call m e (hagrees.answer ▸ hanswer)
        have hnext := hagrees.state
        rw [show (perform call m).state = m from hsame] at hnext
        exact ⟨hnext, hformed, hstorable⟩
      · exact ⟨hrefuses.state, hformed, hstorable⟩
  lookedUp {s m} call h hknown := by
    obtain ⟨hholds, hformed, hstorable⟩ := h
    obtain ⟨hfits, hstate⟩ := hknown.fits hstorable
    have hmetrics : ∀ root step, call ≠ .partitionMetrics root step := by
      rintro root step rfl
      exact hknown
    rcases Database.mirrors_perform hserves hformed hstorable hholds call hmetrics with
      hagrees | ⟨-, hunfit⟩
    · exact ⟨hagrees.answer, hstate ▸ hagrees.state, hformed, hstorable⟩
    · exact absurd ⟨hfits, hstate.symm ▸ hstorable⟩ hunfit

/-- An opened store carries the ledger that it holds. -/
theorem OpenLedger.carriesLedger : CarriesLedger OpenLedger.Carries := by
  have hsame : OpenLedger.Carries = fun l m => l.Holds m ∧ m.WellFormed ∧ m.Storable := by
    funext l m
    exact propext ⟨fun h => ⟨h.holds, h.wellFormed, h.storable⟩, fun h => ⟨h.1, h.2.1, h.2.2⟩⟩
  rw [hsame]
  exact carriesLedger_of_serves serves

/-! ## What is looked up -/

namespace CarriesLedger

variable {σ : Type} [LedgerStore σ] {Carries : σ → Memory → Prop}
  (hcarries : CarriesLedger Carries) {s : σ} {m : Memory} (hm : Carries s m)

include hcarries hm

/-- The store answers with something exactly if the ledger does so, and knows the number that is
asked for then. -/
theorem answer_eq_ok_iff (call : Call) {a : call.Answer}
    (hmetrics : ∀ root step, call ≠ .partitionMetrics root step)
    (hknown : (perform call m).answer = .ok a → m.KnowsNumber call) :
    (perform call s).answer = .ok a ↔ (perform call m).answer = .ok a := by
  refine ⟨fun h => (hcarries.answered call hm hmetrics h).1, fun h => ?_⟩
  rw [(hcarries.lookedUp call hm (hknown h)).1, h]

/-- A store that carries a ledger finds the instances of it. -/
theorem findInstance_eq_some_iff {id : InstanceId} {i : JobInstance} :
    (perform (.findInstance id) s).answer = .ok (some i) ↔ m.instance? id = some i := by
  refine (hcarries.answer_eq_ok_iff hm (.findInstance id) nofun fun h => ?_).trans
    ⟨Except.ok.inj, congrArg Except.ok⟩
  exact (hcarries.wellFormed hm).instance?_le (Except.ok.inj h)

/-- A store that carries a ledger finds the executions of it. -/
theorem findExecution_eq_some_iff {id : ExecutionId} {e : JobExecution} :
    (perform (.findExecution id) s).answer = .ok (some e) ↔ m.execution? id = some e := by
  refine (hcarries.answer_eq_ok_iff hm (.findExecution id) nofun fun h => ?_).trans
    ⟨Except.ok.inj, congrArg Except.ok⟩
  exact (hcarries.wellFormed hm).execution?_le (Except.ok.inj h)

/-- A store that carries a ledger finds the step executions of it. -/
theorem findStep_eq_some_iff {id : StepId} {row : StepExecution} :
    (perform (.findStep id) s).answer = .ok (some row) ↔ m.step? id = some row := by
  refine (hcarries.answer_eq_ok_iff hm (.findStep id) nofun fun h => ?_).trans
    ⟨Except.ok.inj, congrArg Except.ok⟩
  exact (hcarries.wellFormed hm).step?_le (Except.ok.inj h)

end CarriesLedger

/-! ## Operations that are one call -/

/-- A call that is made as an operation of its own only. -/
def Call.StandsAlone : Call → Prop
  | .createInstance .. | .markStarted .. | .setExecutionStatus .. | .finalizeExecution ..
  | .purge .. => True
  | _ => False

/-- An operation that makes a call that stands alone is this call. -/
theorem Operation.eq_call_of_makes {operation : Operation} {call : Call}
    (hmakes : operation.Makes call) (halone : call.StandsAlone) : operation = .call call := by
  cases operation with
  | call c =>
    obtain rfl : call = c := hmakes
    rfl
  | updateJobStatus status | updateStepStatus id step status | ensureCheckpoint id step =>
    rcases hmakes with rfl | rfl <;> exact halone.elim
  | moveJob id transition | partitionTotals root step =>
    rcases hmakes with rfl | ⟨_, rfl⟩ <;> exact halone.elim
  | aggregatePartitions root step parent time final =>
    rcases hmakes with (rfl | ⟨_, rfl⟩) | rfl | ⟨_, rfl⟩ <;> exact halone.elim
  | createPartitions root step count appTag | updateEncoded reader writer id step read written =>
    obtain ⟨_, rfl⟩ := hmakes
    exact halone.elim
  | _ =>
    obtain rfl : call = _ := hmakes
    exact halone.elim

/-! ## Properties of a run -/

section Runs

variable {σ : Type} [LedgerStore σ] {P Q I J : σ → Prop}

/-- A property holds at every point of a run. -/
def Throughout (P : σ → Prop) : σ → List Operation → Prop
  | s, [] => P s
  | s, operation :: rest => P s ∧ Throughout P (operation.next s) rest

/-- A property holds at every point of a run, or up to a purge behind which another one holds at
every point. -/
def UntilPurge (P Q : σ → Prop) : σ → List Operation → Prop
  | s, [] => P s
  | s, operation :: rest =>
    P s ∧ (UntilPurge P Q (operation.next s) rest ∨
      (∃ tag, operation = .call (.purge tag)) ∧ Throughout Q (operation.next s) rest)

/-- What follows from an invariant of the calls holds throughout. -/
theorem throughout_of_keeps (hcalls : ∀ call, Keeps I (perform call)) (hP : ∀ s, I s → P s) {s : σ}
    (hs : I s) (operations : List Operation) : Throughout P s operations := by
  induction operations generalizing s with
  | nil => exact hP s hs
  | cons operation rest ih =>
    have hkeeps : Keeps I operation.perform := Operation.keeps_perform fun call _ => hcalls call
    exact ⟨hP s hs, ih (hkeeps s hs)⟩

/-- One invariant lasts until a purge may put another one in its place, which lasts for good. -/
theorem untilPurge_of_keeps {operations : List Operation}
    (hkeeps : ∀ operation ∈ operations, (∀ tag, operation ≠ .call (.purge tag)) →
      Keeps I operation.perform)
    (hpurge : ∀ s tag, I s → I (perform (.purge tag) s).state ∨ J (perform (.purge tag) s).state)
    (hcalls : ∀ call, Keeps J (perform call)) (hP : ∀ s, I s → P s) (hQ : ∀ s, J s → Q s) {s : σ}
    (hs : I s) : UntilPurge P Q s operations := by
  induction operations generalizing s with
  | nil => exact hP s hs
  | cons operation rest ih =>
    have hrest := fun other hother => hkeeps other (List.mem_cons_of_mem _ hother)
    refine ⟨hP s hs, ?_⟩
    by_cases hop : ∃ tag, operation = .call (.purge tag)
    · obtain ⟨tag, rfl⟩ := hop
      rcases hpurge s tag hs with hsame | hgone
      · exact .inl (ih hrest hsame)
      · exact .inr ⟨⟨tag, rfl⟩, throughout_of_keeps hcalls hQ hgone rest⟩
    · have hnot : ∀ tag, operation ≠ .call (.purge tag) := fun tag heq => hop ⟨tag, heq⟩
      exact .inl (ih hrest (hkeeps operation List.mem_cons_self hnot s hs))

end Runs

/-! ## Invariants of the ledger that is carried -/

section Bears

variable {σ : Type} [LedgerStore σ] {Carries : σ → Memory → Prop} {A B : Memory → Prop}

/-- A store carries a ledger with a property. -/
def Bears (Carries : σ → Memory → Prop) (A : Memory → Prop) (s : σ) : Prop :=
  ∃ m, Carries s m ∧ A m

variable (hcarries : CarriesLedger Carries)

include hcarries

/-- What every change by a call leads to, the call leads to. -/
theorem leads_bears {call : Call} (hsame : ∀ m, A m → B m)
    (hchange : ∀ {m next : Memory}, m.WellFormed → A m → Memory.Changes call m next → B next) :
    Leads (Bears Carries A) (perform call : Action LedgerError σ call.Answer)
      (fun _ => Bears Carries B) fun _ => Bears Carries B := by
  rintro s ⟨m, hm, hA⟩
  have hnext := hchange (hcarries.wellFormed hm) hA (Memory.changes_perform call m)
  have hstate : Bears Carries B (perform call s).state := by
    rcases hcarries.cases call hm with hdone | hnone
    · exact ⟨_, hdone, hnext⟩
    · exact ⟨m, hnone, hsame m hA⟩
  cases (perform call s).answer with
  | ok a => exact hstate
  | error e => exact hstate

/-- What no change by a call takes from the ledger, the call keeps. -/
theorem keeps_bears {call : Call}
    (hchange : ∀ {m next : Memory}, m.WellFormed → A m → Memory.Changes call m next → A next) :
    Keeps (Bears Carries A) (perform call : Action LedgerError σ call.Answer) :=
  (leads_bears hcarries (fun _ hA => hA) hchange).keeps

/-- A call that changes nothing answers with what is in the ledger. -/
theorem leads_look (call : Call) (hlook : ∀ m : Memory, (perform call m).state = m)
    (hmetrics : ∀ root step, call ≠ .partitionMetrics root step) :
    Leads (Bears Carries A) (perform call : Action LedgerError σ call.Answer)
      (fun a => Bears Carries fun m => A m ∧ (perform call m).answer = .ok a)
      fun _ => Bears Carries A := by
  rintro s ⟨m, hm, hA⟩
  cases hanswer : (perform call s).answer with
  | ok a =>
    obtain ⟨hsame, hnext⟩ := hcarries.answered call hm hmetrics hanswer
    rw [hlook] at hnext
    exact ⟨m, hnext, hA, hsame⟩
  | error e =>
    have hcases := hcarries.cases call hm
    rw [hlook, or_self] at hcases
    exact ⟨m, hcases, hA⟩

/-- A purge leaves what it leaves of the ledger, or all of it. -/
theorem bears_purge {s : σ} {tag : String}
    (hpurge : ∀ {m : Memory}, m.WellFormed → A m → A (m.remaining tag) ∨ B (m.remaining tag))
    (hs : Bears Carries A s) :
    Bears Carries A (perform (.purge tag) s).state ∨
      Bears Carries B (perform (.purge tag) s).state := by
  obtain ⟨m, hm, hA⟩ := hs
  rcases hcarries.cases (.purge tag) hm with hdone | hsame
  · rw [(hcarries.wellFormed hm).perform_purge] at hdone
    exact (hpurge (hcarries.wellFormed hm) hA).imp (fun h => ⟨_, hdone, h⟩) fun h => ⟨_, hdone, h⟩
  · exact .inl ⟨m, hsame, hA⟩

end Bears

/-- What holds of every store that carries a ledger holds of both stores after every run. -/
theorem reached_of_carries {P : {σ : Type} → [LedgerStore σ] → σ → Prop}
    (h : ∀ {σ : Type} [LedgerStore σ] {Carries : σ → Memory → Prop}, CarriesLedger Carries →
      ∀ {s m}, Carries s m → P s) (operations : List Operation) :
    P (Operation.run Memory.empty operations) ∧
      ∀ {t : FileTree} {settings : StoreSettings} {place : Place} {l : OpenLedger},
        l.OpenedAt t settings place → P (Operation.run l operations) := by
  constructor
  · exact h Memory.carriesLedger ⟨rfl, Memory.wellFormed_reached operations⟩
  · intro t settings place l hl
    obtain ⟨m, hm⟩ := hl.carries_run operations
    exact h OpenLedger.carriesLedger hm

end JobLedger
