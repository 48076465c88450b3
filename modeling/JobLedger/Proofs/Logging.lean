import JobLedger.Proofs.Memory.HistorySteps
import JobLedger.Proofs.Recording
import JobLedger.Proofs.Runs

/-!
# Stores with a log

A store may be taken together with the list of all calls that succeeded on it, each with its answer.
What is to be shown of every run in terms of this log is shown of what one call that succeeds does to
the ledger in memory that the store carries.
-/

namespace JobLedger

open JobLedger.Action

/-- What a call adds to a log. -/
def Call.logged (call : Call) : Except LedgerError call.Answer → CallLog
  | .ok a => [⟨call, a⟩]
  | .error _ => []

/-- A store with its log. -/
structure Logged (σ : Type) where
  store : σ
  log : CallLog

namespace Logged

variable {σ : Type} [LedgerStore σ]

/-- A call on the store, which is logged if it succeeds. -/
instance : LedgerStore (Logged σ) where
  perform call s :=
    let outcome := LedgerStore.perform call s.store
    ⟨outcome.answer, ⟨outcome.state, s.log ++ call.logged outcome.answer⟩, outcome.events⟩

/-- Logging makes no difference to a run. -/
theorem store_run (s : Logged σ) (operations : List Operation) :
    (Operation.run s operations).store = Operation.run s.store operations :=
  Operation.map_run (f := store) (fun _ _ => ⟨rfl, rfl⟩) s operations

end Logged

/-- The log of a run of operations. -/
def Operation.log {σ : Type} [LedgerStore σ] (s : σ) (operations : List Operation) : CallLog :=
  (run (⟨s, []⟩ : Logged σ) operations).log

/-- A property of a ledger and a log holds on for every call that succeeds. -/
def CallLog.Extends (A : Memory → CallLog → Prop) : Prop :=
  ∀ {m next : Memory} {log : CallLog} {success : Success}, m.WellFormed → A m log →
    Memory.HistoryStep m success next → A next (log ++ [success])

section Carried

variable {σ : Type} [LedgerStore σ] {Carries : σ → Memory → Prop}
  (hcarries : CarriesLedger Carries) {A : Memory → CallLog → Prop} (hA : CallLog.Extends A)

/-- A store carries a ledger with a property that is about its log as well. -/
def BearsLogged (Carries : σ → Memory → Prop) (A : Memory → CallLog → Prop) (s : Logged σ) : Prop :=
  ∃ m, Carries s.store m ∧ A m s.log

include hcarries hA

/-- What holds on for calls that succeed is kept by every call. -/
theorem keeps_bearsLogged (call : Call) :
    Keeps (BearsLogged Carries A) (perform call : Action LedgerError (Logged σ) call.Answer) := by
  rintro ⟨s, log⟩ ⟨m, hm, hlog⟩
  change BearsLogged Carries A
    ⟨(perform call s).state, log ++ call.logged (perform call s).answer⟩
  cases hanswer : (perform call s).answer with
  | error e =>
    rw [Call.logged, List.append_nil]
    exact ⟨m, hcarries.failed call hm hanswer, hlog⟩
  | ok a =>
    rw [Call.logged]
    by_cases hmetrics : ∃ root step, call = .partitionMetrics root step
    · obtain ⟨root, step, rfl⟩ := hmetrics
      -- The counts that a store answers with need not be those of the ledger.
      exact ⟨m, (hcarries.cases (.partitionMetrics root step) hm).elim id id,
        hA (hcarries.wellFormed hm) hlog (.quiet ⟨rfl, rfl, rfl, rfl, rfl⟩)⟩
    · obtain ⟨hsame, hnext⟩ := hcarries.answered call hm
        (fun root step heq => hmetrics ⟨root, step, heq⟩) hanswer
      have hformed := hcarries.wellFormed hm
      exact ⟨_, hnext, hA hformed hlog (Memory.historyStep_of_ok hformed hsame)⟩

/-- A run leads to a ledger with what holds of the empty one and holds on for calls that succeed. -/
theorem exists_bearsLogged (hempty : A Memory.empty []) {s : σ} (hs : Carries s Memory.empty)
    (operations : List Operation) : ∃ m, Carries (Operation.run s operations) m ∧
      A m (Operation.log s operations) := by
  have hstart : BearsLogged Carries A ⟨s, []⟩ := ⟨_, hs, hempty⟩
  obtain ⟨m, hm, hlog⟩ :=
    Operation.run_induction (keeps_bearsLogged hcarries hA) hstart operations
  rw [Logged.store_run] at hm
  exact ⟨m, hm, hlog⟩

end Carried

end JobLedger
