import JobLedger.Memory.Store
import JobLedger.Proofs.Operation

/-!
# Totals of partitions

The counts of the partitions of a step are added up one after the other, and the sum breaks off as
soon as one of the eight counters leaves its word. Counts only ever add to a sum: it breaks off in
some order of the partitions exactly if one of the eight exact sums does not fit, and then it does so
in every order. A sum that does not break off is exact in all eight counters.
-/

namespace JobLedger

open JobLedger.Action

namespace Counters

variable {α : Type}

/-- The eight entries of a record. -/
def entries : List (Counters α → α) :=
  [read, write, commit, rollback, readSkip, processSkip, filter, writeSkip]

/-- The record that has given entries. -/
def tabulate (value : (Counters α → α) → α) : Counters α :=
  ⟨value read, value write, value commit, value rollback, value readSkip, value processSkip,
    value filter, value writeSkip⟩

/-- What holds of each of the eight counters holds of all of them. -/
theorem forall_entries {P : (Counters α → α) → Prop} :
    (∀ entry ∈ entries, P entry) ↔ P read ∧ P write ∧ P commit ∧ P rollback ∧ P readSkip ∧
      P processSkip ∧ P filter ∧ P writeSkip := by
  simp [entries]

/-- Counters that are tabulated have the values that were given. -/
theorem entry_tabulate (value : (Counters α → α) → α) :
    ∀ entry ∈ entries, entry (tabulate value) = value entry :=
  forall_entries.mpr ⟨rfl, rfl, rfl, rfl, rfl, rfl, rfl, rfl⟩

/-- Counters are the same if each of the eight is. -/
theorem eq_of_entries {a b : Counters α} (h : ∀ entry ∈ entries, entry a = entry b) : a = b := by
  obtain ⟨hread, hwrite, hcommit, hrollback, hreadSkip, hprocessSkip, hfilter, hwriteSkip⟩ :=
    forall_entries.mp h
  cases a
  simp_all

end Counters

namespace StepMetrics

/-- The exact sum of one counter over sets of counts. -/
def exactSum (entry : StepMetrics → UInt64) (rows : List StepMetrics) : Nat :=
  rows.foldr (fun row sum => (entry row).toNat + sum) 0

/-- The exact sum of every counter fits in its word. -/
def SumsFit (rows : List StepMetrics) : Prop :=
  ∀ entry ∈ Counters.entries, exactSum entry rows < UInt64.size

instance (rows : List StepMetrics) : Decidable (SumsFit rows) :=
  List.decidableBAll _ Counters.entries

/-- The exact sum of a list is that of its first row and of the rest. -/
theorem exactSum_cons (entry : StepMetrics → UInt64) (row : StepMetrics)
    (rest : List StepMetrics) :
    exactSum entry (row :: rest) = (entry row).toNat + exactSum entry rest := rfl

/-- The exact sum does not depend on the order. -/
theorem exactSum_perm {rows others : List StepMetrics} (h : rows.Perm others)
    (entry : StepMetrics → UInt64) : exactSum entry rows = exactSum entry others := by
  induction h with
  | nil => rfl
  | cons row _ ih => rw [exactSum_cons, exactSum_cons, ih]
  | swap a b rest =>
    simp only [exactSum_cons]
    omega
  | trans _ _ ih₁ ih₂ => rw [ih₁, ih₂]

/-- Two counts have a checked sum if it is the exact one. -/
theorem addCounts?_eq_some_iff {a b c : UInt64} :
    addCounts? a b = some c ↔ c.toNat = a.toNat + b.toNat := by
  rw [addCounts?]
  split
  · rename_i hfits
    have hsum : (a + b).toNat = a.toNat + b.toNat := by
      rw [UInt64.toNat_add]
      exact Nat.mod_eq_of_lt hfits
    rw [Option.some_inj, ← hsum, ← UInt64.toNat_inj]
    exact eq_comm
  · rename_i hover
    have hlt : c.toNat < UInt64.size := c.toNat_lt
    simp only [reduceCtorEq, false_iff]
    omega

/-- Two sets of counts have a sum exactly if it is the sum in each counter. -/
theorem add?_eq_some_iff {a b c : StepMetrics} :
    add? a b = some c ↔
      ∀ entry ∈ Counters.entries, (entry c).toNat = (entry a).toNat + (entry b).toNat := by
  simp only [add?, Counters.traverse, Counters.zip, Option.bind_eq_bind, Option.bind_eq_some_iff,
    addCounts?_eq_some_iff, Counters.forall_entries]
  constructor
  · rintro ⟨_, h₁, _, h₂, _, h₃, _, h₄, _, h₅, _, h₆, _, h₇, _, h₈, hsum⟩
    cases hsum
    exact ⟨h₁, h₂, h₃, h₄, h₅, h₆, h₇, h₈⟩
  · rintro ⟨h₁, h₂, h₃, h₄, h₅, h₆, h₇, h₈⟩
    exact ⟨_, h₁, _, h₂, _, h₃, _, h₄, _, h₅, _, h₆, _, h₇, _, h₈, rfl⟩

/-- Counts of which there is a set that is large enough in each counter have a sum. -/
theorem exists_add? {a b : StepMetrics}
    (h : ∀ entry ∈ Counters.entries, (entry a).toNat + (entry b).toNat < UInt64.size) :
    ∃ c, add? a b = some c := by
  refine ⟨Counters.tabulate fun entry => entry a + entry b, add?_eq_some_iff.mpr ?_⟩
  intro entry hentry
  rw [Counters.entry_tabulate _ entry hentry, UInt64.toNat_add]
  exact Nat.mod_eq_of_lt (h entry hentry)

/-- Sets of counts are added to a start exactly if the start and the exact sums make up the result.
The induction is on the sets that are still to be added. -/
theorem foldlM_add?_eq_some_iff {rows : List StepMetrics} {start total : StepMetrics} :
    rows.foldlM add? start = some total ↔ ∀ entry ∈ Counters.entries,
      (entry total).toNat = (entry start).toNat + exactSum entry rows := by
  induction rows generalizing start with
  | nil =>
    constructor
    · intro h entry _
      cases h
      rfl
    · intro h
      exact congrArg some (Counters.eq_of_entries fun entry hentry =>
        UInt64.toNat_inj.mp (h entry hentry).symm)
  | cons row rest ih =>
    rw [List.foldlM_cons, Option.bind_eq_bind, Option.bind_eq_some_iff]
    constructor
    · intro ⟨next, hnext, hrest⟩ entry hentry
      have hfirst := add?_eq_some_iff.mp hnext entry hentry
      have hothers := ih.mp hrest entry hentry
      rw [exactSum_cons]
      omega
    · intro h
      -- What has been added so far is at most the total, which fits.
      have hfits : ∀ entry ∈ Counters.entries,
          (entry start).toNat + (entry row).toNat < UInt64.size := fun entry hentry => by
        have htotal := h entry hentry
        have hlt : (entry total).toNat < UInt64.size := (entry total).toNat_lt
        rw [exactSum_cons] at htotal
        omega
      obtain ⟨next, hnext⟩ := exists_add? hfits
      refine ⟨next, hnext, ih.mpr fun entry hentry => ?_⟩
      have hfirst := add?_eq_some_iff.mp hnext entry hentry
      have htotal := h entry hentry
      rw [exactSum_cons] at htotal
      omega

/-- A list of counters has a checked sum if every exact sum fits a word, and is that sum. -/
theorem sum?_eq_some_iff {rows : List StepMetrics} {total : StepMetrics} :
    sum? rows = some total ↔
      ∀ entry ∈ Counters.entries, (entry total).toNat = exactSum entry rows := by
  have hzero : ∀ entry ∈ Counters.entries, (entry zero).toNat = 0 :=
    Counters.forall_entries.mpr ⟨rfl, rfl, rfl, rfl, rfl, rfl, rfl, rfl⟩
  rw [sum?, foldlM_add?_eq_some_iff]
  refine forall₂_congr fun entry hentry => ?_
  rw [hzero entry hentry, Nat.zero_add]

/-- The order of the sets of counts makes no difference to the sum, nor to whether there is one. -/
theorem sum?_perm {rows others : List StepMetrics} (h : rows.Perm others) :
    sum? rows = sum? others := by
  refine Option.ext fun total => ?_
  rw [sum?_eq_some_iff, sum?_eq_some_iff]
  simp only [exactSum_perm h]

/-- There is a sum exactly if the exact sum of every counter fits. -/
theorem exists_sum?_iff {rows : List StepMetrics} :
    (∃ total, sum? rows = some total) ↔ SumsFit rows := by
  constructor
  · intro ⟨total, htotal⟩ entry hentry
    rw [← sum?_eq_some_iff.mp htotal entry hentry]
    exact (entry total).toNat_lt
  · intro h
    refine ⟨Counters.tabulate fun entry => .ofNat (exactSum entry rows), sum?_eq_some_iff.mpr ?_⟩
    intro entry hentry
    rw [Counters.entry_tabulate _ entry hentry, UInt64.toNat_ofNat_of_lt' (h entry hentry)]

end StepMetrics

namespace Partition

/-- Asked for the partitions of a step of the instance of an execution, a store gives rows of
counts. -/
structure GivesRows {σ : Type} [LedgerStore σ] (s : σ) (root : ExecutionId) (step : String)
    (id : InstanceId) (rows : List StepMetrics) : Prop where
  /-- The step name is one. -/
  proper : stepNameFault? step = none
  /-- The execution is there. -/
  known : (perform (.instanceOf root) s).answer = .ok id
  given : (perform (.partitionMetrics id step) (perform (.instanceOf root) s).state).answer =
    .ok rows

variable {σ : Type} [LedgerStore σ] {s : σ} {root : ExecutionId} {step : String} {id : InstanceId}
  {rows : List StepMetrics}

/-- The step name of rows that were given is one. -/
theorem GivesRows.ensured (h : GivesRows s root step id rows) :
    (ensureStepName step : Action LedgerError σ Unit) = answer () :=
  ensureStepName_of_none h.proper

/-- The totals are the sum of the rows that are given, or there are too many counts. -/
theorem GivesRows.answer_totals (h : GivesRows s root step id rows) :
    (totals root step s).answer =
      (StepMetrics.sum? rows).elim (.error ⟨.invalid, .metricsOverflow id step⟩) .ok := by
  rw [totals, ensureStepName_bind h.ensured, (bind_ok h.known _).1, (bind_ok h.given _).1]
  cases StepMetrics.sum? rows <;> rfl

/-- Behind the rows the state is no longer touched. -/
theorem GivesRows.state_totals (h : GivesRows s root step id rows) :
    (totals root step s).state =
      (perform (.partitionMetrics id step) (perform (.instanceOf root) s).state).state := by
  rw [totals, ensureStepName_bind h.ensured, (bind_ok h.known _).2, (bind_ok h.given _).2]
  cases StepMetrics.sum? rows <;> rfl

/-- The totals are the checked sum of the rows that were given. -/
theorem GivesRows.totals_eq_ok_iff (h : GivesRows s root step id rows) {total : StepMetrics} :
    (totals root step s).answer = .ok total ↔ StepMetrics.sum? rows = some total := by
  rw [h.answer_totals]
  cases StepMetrics.sum? rows <;> simp

/-- Where there are totals, the step name is one and the execution is there. -/
theorem givesRows_of_totals {total : StepMetrics} (h : (totals root step s).answer = .ok total) :
    ∃ id rows, GivesRows s root step id rows := by
  obtain ⟨_, hensured, -, -⟩ := bind_eq_ok h
  obtain ⟨id, hknown, hrest, -⟩ := bind_eq_ok (answer_of_checked h)
  obtain ⟨rows, hgiven, -, -⟩ := bind_eq_ok hrest
  exact ⟨id, rows, stepNameFault?_of_ensured hensured, hknown, hgiven⟩

/-- The totals of the partitions of a step are exact in all eight counters if the exact sums fit, and
there is an overflow otherwise. The order in which any store gives the rows makes no difference, and
without rows there are no counts. -/
theorem totals_exact (h : GivesRows s root step id rows) :
    (StepMetrics.SumsFit rows → ∃ total, (totals root step s).answer = .ok total ∧
        ∀ entry ∈ Counters.entries, (entry total).toNat = StepMetrics.exactSum entry rows) ∧
      (¬ StepMetrics.SumsFit rows →
        (totals root step s).answer = .error ⟨.invalid, .metricsOverflow id step⟩) ∧
      (∀ {τ : Type} [LedgerStore τ] {u : τ} {other : ExecutionId} {others : List StepMetrics},
        GivesRows u other step id others → others.Perm rows →
          (totals other step u).answer = (totals root step s).answer) ∧
      (rows = [] → (totals root step s).answer = .ok StepMetrics.zero) := by
  have hanswer := h.answer_totals
  refine ⟨fun hfits => ?_, fun hover => ?_, fun hother hperm => ?_, fun hnone => ?_⟩
  · obtain ⟨total, htotal⟩ := StepMetrics.exists_sum?_iff.mpr hfits
    refine ⟨total, ?_, StepMetrics.sum?_eq_some_iff.mp htotal⟩
    rw [hanswer, htotal]
    rfl
  · have hsum : StepMetrics.sum? rows = none :=
      Option.eq_none_iff_forall_ne_some.mpr fun total heq =>
        hover (StepMetrics.exists_sum?_iff.mp ⟨total, heq⟩)
    rw [hanswer, hsum]
    rfl
  · rw [hanswer, hother.answer_totals, StepMetrics.sum?_perm hperm]
  · rw [hanswer, hnone]
    rfl

/-- Two partitions fill the words of all counters. Behind one more item that is read there is an
overflow. -/
theorem totals_exact_fullWords :
    let load : InstanceId := ⟨1, by decide, by decide⟩
    let first : ExecutionId := ⟨1, by decide, by decide⟩
    let second : ExecutionId := ⟨2, by decide, by decide⟩
    let third : ExecutionId := ⟨3, by decide, by decide⟩
    let full := Operation.run Memory.empty [.call (.createInstance "load" "nightly" none),
      .createPartitions load "copy" 2 "nightly",
      .call (.createExecution load .empty .started ⟨1⟩),
      .call (.createExecution ⟨2, by decide, by decide⟩ .empty .started ⟨1⟩),
      .call (.createExecution ⟨3, by decide, by decide⟩ .empty .started ⟨1⟩),
      .call (.createStep second "copy" (Counters.const 7) ⟨2⟩),
      .call (.createStep third "copy" (Counters.const 18446744073709551608) ⟨2⟩)]
    let beyond := Operation.run full
      [.call (.createStep third "copy" { StepMetrics.zero with read := 1 } ⟨3⟩)]
    (totals first "copy" full).answer = .ok (Counters.const 18446744073709551615) ∧
      (totals first "copy" beyond).answer = .error ⟨.invalid, .metricsOverflow load "copy"⟩ := by
  intro load first second third full beyond
  let rows : List StepMetrics := [Counters.const 7, Counters.const 18446744073709551608]
  have hfull : GivesRows full first "copy" load rows :=
    ⟨by decide, eq_ok_of_toOption (by decide +kernel), eq_ok_of_toOption (by decide +kernel)⟩
  have hover : GivesRows beyond first "copy" load (rows ++ [{ StepMetrics.zero with read := 1 }]) :=
    ⟨by decide, eq_ok_of_toOption (by decide +kernel), eq_ok_of_toOption (by decide +kernel)⟩
  obtain ⟨total, htotal, hsums⟩ := (totals_exact hfull).1 (by decide)
  have hwords : ∀ entry ∈ Counters.entries, StepMetrics.exactSum entry rows =
      (entry (Counters.const 18446744073709551615)).toNat := by decide
  have hsame : total = Counters.const 18446744073709551615 :=
    Counters.eq_of_entries fun entry hentry =>
      UInt64.toNat_inj.mp ((hsums entry hentry).trans (hwords entry hentry))
  exact ⟨hsame ▸ htotal, (totals_exact hover).2.1 (by decide)⟩

end Partition

end JobLedger
