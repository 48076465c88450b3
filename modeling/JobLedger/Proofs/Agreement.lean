import JobLedger.Proofs.Files.Opening

/-!
# The two stores agree

A store that is opened on a new file answers a sequence of calls exactly as the store in memory does,
from the empty ledger on. That takes that every request fits into a database and that what the
ledger comes to hold can be stored: its rows can be numbered, and its blobs framed.
-/

namespace JobLedger

namespace Call

/-- The answers to calls, one after the other. A call that fails does not end the sequence. -/
def answers {σ : Type} [LedgerStore σ] (state : σ) :
    List Call → List (Σ call : Call, Except LedgerError call.Answer)
  | [] => []
  | call :: rest => ⟨call, (perform call state).answer⟩ :: answers (perform call state).state rest

/-- The calls can be made on a database from a ledger on: each of them fits, and so does what it
leaves. The counts of partitions are not asked for. -/
def Admitted (m : Memory) : List Call → Prop
  | [] => True
  | call :: rest =>
    call.Fits ∧ (∀ root step, call ≠ .partitionMetrics root step) ∧
      (perform call m).state.Storable ∧ Admitted (perform call m).state rest

/-- A store that serves answers calls as the ledger that it holds. -/
theorem answers_eq {σ : Type} [KeepsDatabase σ] {Holds : σ → Memory → Prop}
    (hserves : Serves Holds) {s : σ} {m : Memory} (h : m.WellFormed) (hs : m.Storable)
    (hholds : Holds s m) {calls : List Call} (hcalls : Admitted m calls) :
    answers s calls = answers m calls := by
  induction calls generalizing s m with
  | nil => rfl
  | cons call rest ih =>
    obtain ⟨hfits, hmetrics, hnext, hrest⟩ := hcalls
    rcases Database.mirrors_perform hserves h hs hholds call hmetrics with
      hagrees | ⟨-, hunfit⟩
    · rw [answers, answers, hagrees.answer,
        ih (Memory.keeps_wellFormed call m h) hnext hagrees.state hrest]
    · exact absurd ⟨hfits, hnext⟩ hunfit

/-- The store in a new file agrees with the store in memory. -/
theorem answers_openedAt {t : FileTree} {settings : StoreSettings} {place : Place}
    {l : OpenLedger} (hl : l.OpenedAt t settings place) {calls : List Call}
    (hcalls : Admitted Memory.empty calls) : answers l calls = answers Memory.empty calls :=
  answers_eq OpenLedger.serves Memory.wellFormed_empty Memory.storable_empty hl.holds hcalls

/-- An instance whose tokens are kept and whose tag is purged. -/
theorem answers_atStart :
    let id : InstanceId := ⟨1, by decide, by decide⟩
    let calls := [.createInstance "load" "nightly" none, .createJobStatus id, .createPair id "copy",
      .updatePair id "copy" ⟨some [1], some []⟩, .findPair id "copy", .purge "nightly",
      .findInstance id]
    Admitted Memory.empty calls ∧ answers OpenLedger.atStart calls = answers Memory.empty calls := by
  intro id calls
  have hid : (id.number : Int) < signedLimit := by decide
  have htokens : Frame.Fits (some [1]) ∧ Frame.Fits (some []) := by decide
  have hcalls : Admitted Memory.empty calls :=
    ⟨trivial, nofun, by decide +kernel, hid, nofun, by decide +kernel, trivial, nofun,
      by decide +kernel, htokens, nofun, by decide +kernel, trivial, nofun, by decide +kernel,
      trivial, nofun, by decide +kernel, hid, nofun, by decide +kernel, trivial⟩
  exact ⟨hcalls, answers_openedAt OpenLedger.openedAt_atStart hcalls⟩

end Call

end JobLedger
