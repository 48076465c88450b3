import JobLedger.Proofs.Memory.Lasting

/-!
# Statuses that are held

A status record is kept under an instance or under a step execution, and holds a status. Where it
holds `ABANDONED`, a call leaves it so unless it stores another record in its place; once it is
purged there is never one again, for its owner is gone.
-/

namespace JobLedger

/-- What a status record is kept under. -/
inductive StatusKey where
  | job (id : InstanceId)
  | step (id : StepId)
  deriving DecidableEq

namespace Memory

/-- The status in the record that is kept under a key. -/
def held? (m : Memory) : StatusKey → Option BatchStatus
  | .job id => (m.jobStatus? id).map JobStatus.status
  | .step id => (m.stepStatus? id).map StepStatus.status

/-- The owner of a status record is gone. -/
def OwnerGone (m : Memory) : StatusKey → Prop
  | .job id => m.InstanceGone id
  | .step id => m.StepGone id

/-- A call does not purge, and the record that it stores, if any, may take the place of the one that
is there. -/
def Allows (m : Memory) : Call → Prop
  | .updateJobStatus status => ∀ current, m.jobStatus? status.instanceId = some current →
      BatchStatus.MayMove current.status status.status
  | .updateStepStatus status => ∀ current, m.stepStatus? status.statusId = some current →
      BatchStatus.MayMove current.status status.status
  | .purge _ => False
  | _ => True

variable {m next : Memory} {call : Call} {key : StatusKey}

/-- A key finds in front of a row that is added what it found before. -/
theorem find?_append_of_some {α κ : Type} [DecidableEq κ] {f : α → κ} {rows : List α} {k : κ} {a b : α}
    (h : (rows.find? fun a => f a = k) = some a) :
    ((rows ++ [b]).find? fun a => f a = k) = some a := by
  rw [List.find?_append, h]
  rfl

/-- The owner of a record that is gone stays gone. -/
theorem Changes.ownerGone (hformed : m.WellFormed) (h : Changes call m next)
    (hgone : m.OwnerGone key) : next.OwnerGone key := by
  cases key with
  | job id => exact h.instanceGone hformed hgone
  | step id => exact h.stepGone hformed hgone

/-- Where an owner is gone there is no record. -/
theorem WellFormed.held?_eq_none (hformed : m.WellFormed) (hgone : m.OwnerGone key) :
    m.held? key = none := by
  cases key with
  | job id =>
    rw [held?, Option.map_eq_none_iff, jobStatus?, find?_key_eq_none_iff]
    intro status hstatus heq
    obtain ⟨i, hi, hid⟩ := hformed.jobStatus_owner status hstatus
    exact hgone.2 i hi (hid.trans heq)
  | step id =>
    rw [held?, Option.map_eq_none_iff, stepStatus?, find?_key_eq_none_iff]
    intro status hstatus heq
    obtain ⟨s, hs, hid⟩ := hformed.stepStatus_owner status hstatus
    exact hgone.2 s hs (hid.trans heq)

/-- A job that was abandoned stays so, whatever replaces its record. -/
theorem Changes.jobStatus?_abandoned (h : Changes call m next) (hallows : m.Allows call)
    {id : InstanceId} {current : JobStatus} (hcurrent : m.jobStatus? id = some current)
    (habandoned : current.status = .abandoned) :
    ∃ status, next.jobStatus? id = some status ∧ status.status = .abandoned := by
  rcases h.jobStatuses_cases with hrows | ⟨other, -, -, hrows⟩ | ⟨status, rfl, hrows⟩ | ⟨tag, rfl, -⟩
  · rw [jobStatus?, hrows]
    exact ⟨current, hcurrent, habandoned⟩
  · rw [jobStatus?, hrows]
    exact ⟨current, find?_append_of_some hcurrent, habandoned⟩
  · have hkey : ∀ old : JobStatus, old.instanceId = status.instanceId →
        status.instanceId = old.instanceId := fun old heq => heq.symm
    rw [jobStatus?, hrows, find?_changeRow hkey, ← jobStatus?, hcurrent, Option.map_some]
    refine ⟨_, rfl, ?_⟩
    split
    · next hsame =>
      have hid : current.instanceId = id := key_of_find? JobStatus.instanceId hcurrent
      rw [← hid, hsame] at hcurrent
      exact hallows current hcurrent habandoned
    · exact habandoned
  · exact hallows.elim

/-- A step that was abandoned stays so, whatever replaces its record. -/
theorem Changes.stepStatus?_abandoned (h : Changes call m next) (hallows : m.Allows call)
    {id : StepId} {current : StepStatus} (hcurrent : m.stepStatus? id = some current)
    (habandoned : current.status = .abandoned) :
    ∃ status, next.stepStatus? id = some status ∧ status.status = .abandoned := by
  rcases h.stepStatuses_cases with hrows | ⟨other, -, -, -, hrows⟩ |
    ⟨status, old, hold, hcall, hrows⟩ | ⟨tag, rfl, -⟩
  · rw [stepStatus?, hrows]
    exact ⟨current, hcurrent, habandoned⟩
  · rw [stepStatus?, hrows]
    exact ⟨current, find?_append_of_some hcurrent, habandoned⟩
  · have hkey : ∀ old : StepStatus, old.statusId = status.statusId →
        status.statusId = old.statusId := fun old heq => heq.symm
    rw [stepStatus?, hrows, find?_changeRow hkey, ← stepStatus?, hcurrent, Option.map_some]
    refine ⟨_, rfl, ?_⟩
    split
    · next hsame =>
      -- The record that is replaced is the one that is looked at.
      have hid : current.statusId = id := key_of_find? StepStatus.statusId hcurrent
      rw [← hid, hsame] at hcurrent
      rcases hcall with rfl | hstatus
      · exact hallows current hcurrent habandoned
      · rw [hcurrent] at hold
        rw [hstatus, ← Option.some.inj hold, habandoned]
    · exact habandoned
  · exact hallows.elim

/-- A record that holds `ABANDONED` holds it after every call that allows for it. -/
theorem Changes.held?_abandoned (h : Changes call m next) (hallows : m.Allows call)
    (hheld : m.held? key = some .abandoned) : next.held? key = some .abandoned := by
  cases key with
  | job id =>
    obtain ⟨current, hcurrent, habandoned⟩ := Option.map_eq_some_iff.mp hheld
    obtain ⟨status, hstatus, hkept⟩ := h.jobStatus?_abandoned hallows hcurrent habandoned
    rw [held?, hstatus, Option.map_some, hkept]
  | step id =>
    obtain ⟨current, hcurrent, habandoned⟩ := Option.map_eq_some_iff.mp hheld
    obtain ⟨status, hstatus, hkept⟩ := h.stepStatus?_abandoned hallows hcurrent habandoned
    rw [held?, hstatus, Option.map_some, hkept]

/-- A purge leaves a status record as it is, or takes it away together with its owner. -/
theorem WellFormed.held?_remaining (hformed : m.WellFormed) {status : BatchStatus}
    (hheld : m.held? key = some status) (tag : String) :
    (m.remaining tag).held? key = some status ∨ (m.remaining tag).OwnerGone key := by
  have hremaining := hformed.remaining tag
  cases key with
  | job id =>
    obtain ⟨current, hcurrent, hstatus⟩ := Option.map_eq_some_iff.mp hheld
    obtain ⟨hmem, hid⟩ := hformed.jobStatus?_eq_some_iff.mp hcurrent
    obtain ⟨i, hi, howner⟩ := hformed.jobStatus_owner current hmem
    refine (hformed.instanceGone_remaining hi (howner.trans hid) tag).imp_left fun hstays => ?_
    have htag : i.appTag ≠ tag := by simpa using (List.mem_filter.mp hstays).2
    have hkept : current ∈ (m.remaining tag).jobStatuses := by
      refine List.mem_filter.mpr ⟨hmem, ?_⟩
      rw [← howner, instancesOf, hformed.instances_sorted.distinct.contains_map_filter hi]
      simpa using htag
    rw [held?, hremaining.jobStatus?_eq_some_iff.mpr ⟨hkept, hid⟩, Option.map_some, hstatus]
  | step id =>
    obtain ⟨current, hcurrent, hstatus⟩ := Option.map_eq_some_iff.mp hheld
    obtain ⟨hmem, hid⟩ := hformed.stepStatus?_eq_some_iff.mp hcurrent
    obtain ⟨s, hs, howner⟩ := hformed.stepStatus_owner current hmem
    rcases hformed.stepGone_remaining hs tag with hstays | hgone
    · refine .inl ?_
      have hkept : current ∈ (m.remaining tag).stepStatuses := by
        refine List.mem_filter.mpr ⟨hmem, ?_⟩
        rw [← howner, stepsOfTag, hformed.steps_sorted.distinct.contains_map_filter hs]
        exact (List.mem_filter.mp hstays).2
      rw [held?, hremaining.stepStatus?_eq_some_iff.mpr ⟨hkept, hid⟩, Option.map_some, hstatus]
    · exact .inr (howner.trans hid ▸ hgone)

/-- The record that is found for a step of an instance is kept under its own key. -/
theorem WellFormed.stepStatus?_of_findStepStatus (hformed : m.WellFormed) {id : InstanceId}
    {step : String} {current : StepStatus} (hfound : m.findStepStatus id step = some current) :
    m.stepStatus? current.statusId = some current ∧ stepNameFault? step = none := by
  obtain ⟨s, hs, hcurrent⟩ := List.exists_of_findSome?_eq_some hfound
  obtain ⟨hmem, hstep⟩ := List.mem_filter.mp hs
  obtain ⟨-, hid⟩ := hformed.stepStatus?_eq_some_iff.mp hcurrent
  rw [hid]
  refine ⟨hcurrent, ?_⟩
  rw [← of_decide_eq_true hstep]
  exact hformed.stepName_proper s (List.mem_filter.mp hmem).1

end Memory

end JobLedger
