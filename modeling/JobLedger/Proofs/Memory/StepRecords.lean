import JobLedger.Proofs.Memory.Owners

/-!
# The status record of a step

The status record of a step of an instance is looked up through the step executions that enter the
step: of those that have a record it is the one with the lowest number. So it stays the same record
as long as no record is created for one of the step executions before it.
-/

namespace JobLedger.Memory

/-- The first row, by number, for which there is something. -/
theorem SortedIds.findSome?_eq_some_iff {ρ β : Type} {entity : Entity} {key : ρ → Id entity}
    {rows : List ρ} (h : SortedIds key rows) {f : ρ → Option β} {b : β} :
    rows.findSome? f = some b ↔
      ∃ a ∈ rows, f a = some b ∧ ∀ c ∈ rows, (key c).number < (key a).number → f c = none := by
  rw [List.findSome?_eq_some_iff]
  constructor
  · rintro ⟨before, a, behind, rfl, ha, hnone⟩
    refine ⟨a, by simp, ha, fun c hc hlt => ?_⟩
    rcases List.mem_append.mp hc with hbefore | hbehind
    · exact hnone c hbefore
    · have hle : (key a).number ≤ (key c).number := by
        rcases List.mem_cons.mp hbehind with rfl | hmem
        · exact Nat.le_refl _
        · exact Nat.le_of_lt (List.rel_of_pairwise_cons (List.pairwise_append.mp h).2.1 hmem)
      omega
  · rintro ⟨a, ha, hb, hnone⟩
    obtain ⟨before, behind, rfl⟩ := List.append_of_mem ha
    refine ⟨before, a, behind, rfl, hb, fun c hc => hnone c (List.mem_append_left _ hc) ?_⟩
    exact (List.pairwise_append.mp h).2.2 c hc a List.mem_cons_self

/-- A step of an instance is held by the status record under a key: it is entered by the step
execution of that number, which has a record, and the ones before it that enter the step are among
those that are not recorded. -/
structure HeldUnder (m : Memory) (id : InstanceId) (step : String) (key : StepId)
    (Unrecorded : StepId → Prop) : Prop where
  entered : m.Enters id step key
  recorded : (m.stepStatus? key).isSome
  unrecorded : ∀ entry, m.Enters id step entry → entry.number < key.number →
    Unrecorded entry ∧ m.stepStatus? entry = none

variable {m next : Memory} {call : Call} {id : InstanceId} {step : String} {key : StepId}
  {Unrecorded : StepId → Prop}

namespace WellFormed

variable (hformed : m.WellFormed)

include hformed

/-- The record that is found for a step is that of the first step execution that entered it and has
one. -/
theorem findStepStatus_eq_some_iff {status : StepStatus} :
    m.findStepStatus id step = some status ↔
      m.Enters id step status.statusId ∧ m.stepStatus? status.statusId = some status ∧
        ∀ entry, m.Enters id step entry → entry.number < status.statusId.number →
          m.stepStatus? entry = none := by
  have hrows (row : StepExecution) :
      row ∈ (m.stepsOfInstance id).filter (fun s => s.stepName = step) ↔
        row ∈ m.steps ∧ row.stepName = step ∧ m.OwnsExecution id row.executionId := by
    simp only [stepsOfInstance, List.mem_filter, Option.any_eq_true, decide_eq_true_iff,
      hformed.ownsExecution_iff]
    exact and_assoc.trans (and_congr_right fun _ => and_comm)
  have hsorted : SortedIds StepExecution.id
      ((m.stepsOfInstance id).filter fun s => s.stepName = step) :=
    (hformed.steps_sorted.filter _).filter _
  rw [findStepStatus, hsorted.findSome?_eq_some_iff]
  simp only [hrows]
  constructor
  · rintro ⟨row, ⟨hrow, hname, howner⟩, hstatus, hnone⟩
    have hid := (hformed.stepStatus?_eq_some_iff.mp hstatus).2
    refine ⟨⟨row, hrow, hid.symm, hname, howner⟩, hid ▸ hstatus, ?_⟩
    rintro entry ⟨other, hother, rfl, hname', howner'⟩ hlt
    exact hnone other ⟨hother, hname', howner'⟩ (hid ▸ hlt)
  · rintro ⟨⟨row, hrow, hid, hname, howner⟩, hstatus, hnone⟩
    refine ⟨row, ⟨hrow, hname, howner⟩, hid ▸ hstatus, ?_⟩
    rintro other ⟨hother, hname', howner'⟩ hlt
    exact hnone other.id ⟨other, hother, rfl, hname', howner'⟩ (hid ▸ hlt)

/-- The record that a step is held by is the one that is found for it. -/
theorem exists_of_heldUnder (h : m.HeldUnder id step key Unrecorded) :
    ∃ status, m.findStepStatus id step = some status ∧ status.statusId = key := by
  obtain ⟨status, hstatus⟩ := Option.isSome_iff_exists.mp h.recorded
  obtain ⟨-, rfl⟩ := hformed.stepStatus?_eq_some_iff.mp hstatus
  exact ⟨status, hformed.findStepStatus_eq_some_iff.mpr
    ⟨h.entered, hstatus, fun entry hentry hlt => (h.unrecorded entry hentry hlt).2⟩, rfl⟩

/-- Where an instance is gone, no record is found for its steps. -/
theorem findStepStatus_of_instanceGone (hgone : m.InstanceGone id) :
    m.findStepStatus id step = none := by
  cases hfound : m.findStepStatus id step with
  | none => rfl
  | some status =>
    obtain ⟨hentered, -⟩ := hformed.findStepStatus_eq_some_iff.mp hfound
    obtain ⟨i, hi, hid⟩ := hformed.exists_instance_of_enters hentered
    exact absurd hid (hgone.2 i hi)

/-- A purge leaves the record that a step is held by, or takes the instance away for good. -/
theorem heldUnder_remaining (h : m.HeldUnder id step key Unrecorded) (tag : String) :
    (m.remaining tag).HeldUnder id step key Unrecorded ∨ (m.remaining tag).InstanceGone id := by
  obtain ⟨i, hi, hid⟩ := hformed.exists_instance_of_enters h.entered
  refine (hformed.instanceGone_remaining hi hid tag).imp_left fun hstays => ?_
  have htag : ¬ m.HasTag tag id := hid ▸ hformed.not_hasTag_of_mem_remaining hstays
  refine ⟨(hformed.enters_remaining_iff htag).mpr h.entered, ?_, fun entry hentry hlt => ?_⟩
  · obtain ⟨status, hstatus⟩ := Option.isSome_iff_exists.mp h.recorded
    obtain ⟨hmem, rfl⟩ := hformed.stepStatus?_eq_some_iff.mp hstatus
    have hkept : status ∈ (m.remaining tag).stepStatuses := by
      rw [Memory.remaining, List.mem_filter, Bool.not_eq_true', ← Bool.not_eq_true,
        contains_stepsOfTag_iff]
      exact ⟨hmem, hformed.not_stepHasTag_of_enters htag h.entered⟩
    rw [(hformed.remaining tag).stepStatus?_eq_some_iff.mpr ⟨hkept, rfl⟩]
    rfl
  · obtain ⟨hun, hnone⟩ := h.unrecorded entry ((hformed.enters_remaining_iff htag).mp hentry) hlt
    refine ⟨hun, find?_key_eq_none_iff.mpr fun status hstatus => ?_⟩
    exact find?_key_eq_none_iff.mp hnone status (List.mem_filter.mp hstatus).1

end WellFormed

namespace Changes

variable (h : Changes call m next)

include h

/-- No call but a purge takes a status record of a step away. -/
theorem isSome_stepStatus? (hpurge : ∀ tag, call ≠ .purge tag)
    (hrecorded : (m.stepStatus? key).isSome) : (next.stepStatus? key).isSome := by
  rw [stepStatus?]
  rcases h.stepStatuses_cases with hrows | ⟨id, -, -, -, hrows⟩ | ⟨status, old, -, -, hrows⟩ |
    ⟨tag, heq, -⟩
  · rwa [hrows]
  · obtain ⟨current, hcurrent⟩ := Option.isSome_iff_exists.mp hrecorded
    rw [hrows, List.find?_append, ← stepStatus?, hcurrent]
    rfl
  · rw [hrows, find?_changeRow fun old heq => heq.symm, Option.isSome_map]
    exact hrecorded
  · exact absurd heq (hpurge tag)

/-- A status record of a step is created by the call for it. -/
theorem stepStatus?_eq_none (hpurge : ∀ tag, call ≠ .purge tag) (hnone : m.stepStatus? key = none)
    (hcreate : call ≠ .createStepStatus key) : next.stepStatus? key = none := by
  rw [stepStatus?]
  rcases h.stepStatuses_cases with hrows | ⟨id, hcall, -, -, hrows⟩ | ⟨status, old, -, -, hrows⟩ |
    ⟨tag, heq, -⟩
  · rwa [hrows]
  · have hne : id ≠ key := fun heq => hcreate (heq ▸ hcall)
    rw [hrows, List.find?_append, ← stepStatus?, hnone, Option.none_or]
    exact find?_key_eq_none_iff.mpr (List.forall_mem_singleton.mpr hne)
  · rw [hrows, find?_changeRow fun old heq => heq.symm, ← stepStatus?, hnone, Option.map_none]
  · exact absurd heq (hpurge tag)

/-- A step stays held by its record if no call creates a record before it. -/
theorem heldUnder (hformed : m.WellFormed) (hheld : m.HeldUnder id step key Unrecorded)
    (hpurge : ∀ tag, call ≠ .purge tag)
    (hcreate : ∀ entry, call = .createStepStatus entry → ¬ Unrecorded entry) :
    next.HeldUnder id step key Unrecorded := by
  have hknown := hformed.step_known hheld.entered
  refine ⟨(h.enters_iff hpurge hformed hknown).mpr hheld.entered,
    h.isSome_stepStatus? hpurge hheld.recorded, fun entry hentry hlt => ?_⟩
  -- A step execution before the one of the key was there already.
  have hbefore := (h.enters_iff hpurge hformed (by omega)).mp hentry
  obtain ⟨hun, hnone⟩ := hheld.unrecorded entry hbefore hlt
  exact ⟨hun, h.stepStatus?_eq_none hpurge hnone fun heq => hcreate entry heq hun⟩

end Changes

end JobLedger.Memory
