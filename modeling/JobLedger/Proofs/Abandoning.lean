import JobLedger.Proofs.Memory.Statuses
import JobLedger.Proofs.Runs

/-!
# Abandoned for good

A status record that holds `ABANDONED` holds it for good. Every operation but the calls that store
records unchecked leaves it so, on both stores, until its owner is purged, and then there is never a
record under its key again. A move of the tracker to another status is refused, and changes nothing.
-/

namespace JobLedger

open JobLedger.Action

/-- The status in the record that is kept under a key. -/
def Database.held (db : Database) : StatusKey → Except StoreError (Option BatchStatus)
  | .job id => (findJobStatus id.number db).map (Option.map JobStatus.status)
  | .step id => do
    let operation := "get step status"
    let stepStatuses ← need operation db.stepStatuses
    match stepStatuses.find? id.number with
    | none => .ok none
    | some cell =>
      (storedStepStatus id.number (← cell.readBlob operation)).map fun status => some status.status

/-- The database of a ledger holds the statuses of the ledger. -/
theorem Memory.held_database {m : Memory} (h : m.WellFormed) (hs : m.Storable) (key : StatusKey) :
    m.database.held key = .ok (m.held? key) := by
  cases key with
  | job id =>
    rw [Database.held, findJobStatus_eq h hs]
    rfl
  | step id =>
    rw [Database.held, need_stepStatuses, ok_bind, h.find?_stepStatusTable, held?]
    cases hstatus : m.stepStatus? id with
    | none => rfl
    | some status =>
      obtain ⟨hmem, rfl⟩ := h.stepStatus?_eq_some_iff.mp hstatus
      rw [Option.map_some]
      dsimp only [recordCell, Cell.readBlob]
      rw [ok_bind, storedStepStatus_eq h hs hmem]
      rfl

namespace Operation

/-- An operation stores a status record without looking at the one that is there. -/
def StoresUnchecked (operation : Operation) : Prop :=
  (∃ status, operation = .call (.updateJobStatus status)) ∨
    ∃ status, operation = .call (.updateStepStatus status)

/-- An operation of the tracker is to give the record under a key another status, which the error
names with the holder of the record. -/
inductive Moves {σ : Type} [LedgerStore σ] (s : σ) :
    Operation → StatusKey → StatusHolder → BatchStatus → Prop where
  | updateJobStatus (status : JobStatus) :
    Moves s (.updateJobStatus status) (.job status.instanceId) (.job status.instanceId) status.status
  | moveJob {id : InstanceId} {transition : JobTransition} {target : BatchStatus}
      (htarget : ∀ current, (transition.apply current).status = target) :
    Moves s (.moveJob id transition) (.job id) (.job id) target
  | updateStepStatus {id : InstanceId} {step : String} {status current : StepStatus}
      (hfound : (LedgerStore.perform (.findStepStatus id step) s).answer = .ok (some current))
      (hkey : current.statusId = status.statusId) :
    Moves s (.updateStepStatus id step status) (.step status.statusId) (.step id step) status.status

end Operation

/-- A status record of a store holds `ABANDONED` through every run of operations that check what they
store, until a purge behind which there is none, and no move of the tracker changes anything. -/
structure StaysAbandoned {σ δ : Type} [LedgerStore σ] (kept : σ → δ)
    (held : δ → StatusKey → Except StoreError (Option BatchStatus)) (s : σ) (key : StatusKey) :
    Prop where
  lasts (operations : List Operation) :
    (∀ operation ∈ operations, ¬ operation.StoresUnchecked) →
      UntilPurge (fun t => held (kept t) key = .ok (some .abandoned))
        (fun t => held (kept t) key = .ok none) s operations
  refuses {operation : Operation} {holder : StatusHolder} {target : BatchStatus} :
    operation.Moves s key holder target → target ≠ .abandoned →
      (operation.perform s).answer = .error ⟨.invalidTransition, .leavesAbandoned holder target⟩ ∧
        kept (operation.perform s).state = kept s

/-- A move out of the abandoned state is refused. -/
theorem ensureMove_refuses {σ : Type} (holder : StatusHolder) {target : BatchStatus}
    (htarget : target ≠ .abandoned) (s : σ) :
    (Tracker.ensureMove holder .abandoned target s).answer =
        .error ⟨.invalidTransition, .leavesAbandoned holder target⟩ ∧
      (Tracker.ensureMove holder .abandoned target s).state = s := by
  have hnot : ¬ BatchStatus.MayMove .abandoned target := fun hmay => htarget (hmay rfl)
  rw [Tracker.ensureMove, if_neg hnot]
  exact ⟨rfl, rfl⟩

/-- Behind a move that was allowed, it is known to be so. -/
theorem leads_ensureMove {σ : Type} {P : σ → Prop} {E : LedgerError → σ → Prop}
    {holder : StatusHolder} {origin target : BatchStatus} (hfail : ∀ e s, P s → E e s) :
    Leads P (Tracker.ensureMove holder origin target)
      (fun _ s => P s ∧ BatchStatus.MayMove origin target) E := by
  rw [Tracker.ensureMove]
  split
  · next hmay => exact .answer fun s hs => ⟨hs, hmay⟩
  · exact .bind (.report fun s hs => hs) fun _ => .fail fun s hs => hfail _ s hs

section Carried

variable {σ : Type} [LedgerStore σ] {Carries : σ → Memory → Prop} {key : StatusKey}
  (hcarries : CarriesLedger Carries)

/-- The record under a key holds `ABANDONED` in the ledger of a store, of which more is known. -/
abbrev BearsAbandoned (Carries : σ → Memory → Prop) (key : StatusKey) (R : Memory → Prop) :
    σ → Prop :=
  Bears Carries fun m => m.held? key = some .abandoned ∧ R m

/-- The record under a key holds `ABANDONED` in the ledger of a store. -/
abbrev BearsAbandonedAlone (Carries : σ → Memory → Prop) (key : StatusKey) : σ → Prop :=
  Bears Carries fun m => m.held? key = some .abandoned

include hcarries

/-- A record that may take the place of the one that is there is stored. -/
theorem leads_store (call : Call) {R : Memory → Prop}
    (hallows : ∀ {m : Memory}, m.WellFormed → R m → m.Allows call) :
    Leads (BearsAbandoned Carries key R) (perform call : Action LedgerError σ call.Answer)
      (fun _ => BearsAbandonedAlone Carries key) fun _ => BearsAbandonedAlone Carries key :=
  leads_bears hcarries (fun _ h => h.1) fun hformed h hchange =>
    hchange.held?_abandoned (hallows hformed h.2) h.1

/-- The status record of an instance that is looked up is the one of the ledger. -/
theorem leads_jobStatus (id : InstanceId) :
    Leads (BearsAbandonedAlone Carries key) (Tracker.jobStatus (σ := σ) id)
      (fun current => BearsAbandoned Carries key fun m => m.jobStatus? id = some current)
      fun _ => BearsAbandonedAlone Carries key := by
  refine (leads_look hcarries (.findJobStatus id) (fun _ => rfl) nofun).bind fun found => ?_
  refine .ofOption (fun current hcurrent s => ?_) fun _ s => ?_
  · rintro ⟨m, hm, hheld, hfound⟩
    exact ⟨m, hm, hheld, (Except.ok.inj hfound).trans hcurrent⟩
  · rintro ⟨m, hm, hheld, -⟩
    exact ⟨m, hm, hheld⟩

/-- A move is checked against the record that it replaces. -/
theorem leads_moveJobStatus {id : InstanceId} {current next : JobStatus}
    (hid : current.instanceId = id → next.instanceId = id) :
    Leads (BearsAbandoned Carries key fun m => m.jobStatus? id = some current)
      (Tracker.moveJobStatus (σ := σ) current next) (fun _ => BearsAbandonedAlone Carries key)
      fun _ => BearsAbandonedAlone Carries key := by
  refine (leads_ensureMove fun _ s hs => ?_).bind fun _ => .of_and fun hmay => ?_
  · obtain ⟨m, hm, hheld, -⟩ := hs
    exact ⟨m, hm, hheld⟩
  · refine (leads_store hcarries (.updateJobStatus next) fun {m} _ hcurrent other hother => ?_).bind
      fun _ => .of_keeps ((Keeps.report _).bind fun _ => Keeps.answer _)
    have hkey : current.instanceId = id := key_of_find? JobStatus.instanceId hcurrent
    rw [hid hkey, hcurrent] at hother
    exact Option.some.inj hother ▸ hmay

/-- The status record of a step that is looked up is the one of the ledger. -/
theorem leads_stepStatus (id : InstanceId) (step : String) :
    Leads (BearsAbandonedAlone Carries key) (Tracker.stepStatus (σ := σ) id step)
      (fun current => BearsAbandoned Carries key fun m => m.findStepStatus id step = some current)
      fun _ => BearsAbandonedAlone Carries key := by
  refine (Leads.of_keeps (keeps_ensureStepName step)).bind fun _ =>
    (leads_look hcarries (.findStepStatus id step) (fun _ => rfl) nofun).bind fun found => ?_
  refine .ofOption (fun current hcurrent s => ?_) fun _ s => ?_
  · rintro ⟨m, hm, hheld, hfound⟩
    exact ⟨m, hm, hheld, (Except.ok.inj hfound).trans hcurrent⟩
  · rintro ⟨m, hm, hheld, -⟩
    exact ⟨m, hm, hheld⟩

/-- The record of a step is replaced by one under its own key that it may move to. -/
theorem leads_updateStepStatus (id : InstanceId) (step : String) (status : StepStatus) :
    Leads (BearsAbandonedAlone Carries key) (Tracker.updateStepStatus (σ := σ) id step status)
      (fun _ => BearsAbandonedAlone Carries key) fun _ => BearsAbandonedAlone Carries key := by
  refine (leads_stepStatus hcarries id step).bind fun current => ?_
  have hforget : ∀ s, BearsAbandoned Carries key (fun m => m.findStepStatus id step = some current) s →
      BearsAbandonedAlone Carries key s := by
    rintro s ⟨m, hm, hheld, -⟩
    exact ⟨m, hm, hheld⟩
  split
  · exact .fail hforget
  · next hkey =>
    refine (leads_ensureMove fun _ => hforget).bind fun _ => .of_and fun hmay => ?_
    refine (leads_store hcarries (.updateStepStatus status) fun {m} hformed hfound other hother => ?_).bind
      fun _ => .of_keeps (Keeps.report _)
    have hcurrent := (hformed.stepStatus?_of_findStepStatus hfound).1
    rw [Decidable.not_not.mp hkey, hother] at hcurrent
    exact Option.some.inj hcurrent ▸ hmay

/-- Operations that check what they store keep a record abandoned. -/
theorem keeps_abandoned {operation : Operation} (hchecked : ¬ operation.StoresUnchecked)
    (hpurge : ∀ tag, operation ≠ .call (.purge tag)) :
    Keeps (BearsAbandonedAlone Carries key)
      (operation.perform : Action LedgerError σ operation.Answer) := by
  have hcalls (hallows : ∀ call, operation.Makes call → ∀ m : Memory, m.Allows call) :
      Keeps (BearsAbandonedAlone Carries key)
        (operation.perform : Action LedgerError σ operation.Answer) :=
    Operation.keeps_perform fun call hmakes => keeps_bears hcarries fun _ hheld hchange =>
      hchange.held?_abandoned (hallows call hmakes _) hheld
  cases operation with
  | call call =>
    refine hcalls fun made hmakes m => ?_
    obtain rfl : made = call := hmakes
    cases made with
    | updateJobStatus status => exact absurd (.inl ⟨status, rfl⟩) hchecked
    | updateStepStatus status => exact absurd (.inr ⟨status, rfl⟩) hchecked
    | purge tag => exact absurd rfl (hpurge tag)
    | _ => trivial
  -- The three operations that store a record check it against the one that they looked up.
  | updateJobStatus status =>
    exact ((leads_jobStatus hcarries status.instanceId).bind fun _ =>
      (leads_moveJobStatus hcarries fun _ => rfl).bind fun _ => .of_keeps (Keeps.answer _)).keeps
  | moveJob id transition =>
    have hmove : Keeps (BearsAbandonedAlone Carries key) (Tracker.jobStatus id >>= fun current =>
        (Tracker.moveJobStatus current (transition.apply current) :
          Action LedgerError σ JobStatus)) :=
      ((leads_jobStatus hcarries id).bind fun current =>
        leads_moveJobStatus hcarries fun hid => (transition.apply_instanceId current).trans hid).keeps
    simp only [Operation.perform, Tracker.moveJob]
    split
    · exact (keeps_ensureStepName _).bind fun _ => hmove
    · exact (Keeps.answer _).bind fun _ => hmove
  | updateStepStatus id step status => exact (leads_updateStepStatus hcarries id step status).keeps
  | ensureCheckpoint id step =>
    exact hcalls fun _ hmakes _ => by rcases hmakes with rfl | rfl <;> trivial
  | partitionTotals root step =>
    exact hcalls fun _ hmakes _ => by rcases hmakes with rfl | ⟨_, rfl⟩ <;> trivial
  | aggregatePartitions root step parent time final =>
    exact hcalls fun _ hmakes _ => by
      rcases hmakes with (rfl | ⟨_, rfl⟩) | rfl | ⟨_, rfl⟩ <;> trivial
  | createPartitions root step count appTag | updateEncoded reader writer id step read written =>
    exact hcalls fun _ hmakes _ => by
      obtain ⟨_, rfl⟩ := hmakes
      trivial
  | _ =>
    exact hcalls fun made hmakes _ => by
      obtain rfl : made = _ := hmakes
      trivial

/-! ## Moves that are refused -/

omit hcarries [LedgerStore σ] in
/-- A record that is there is that of an instance whose number was given out. -/
theorem Memory.WellFormed.knows_jobStatus {m : Memory} (hformed : m.WellFormed) {id : InstanceId}
    {current : JobStatus} (hcurrent : m.jobStatus? id = some current) :
    m.KnowsNumber (.findJobStatus id) := by
  obtain ⟨hmem, rfl⟩ := hformed.jobStatus?_eq_some_iff.mp hcurrent
  obtain ⟨i, hi, hid⟩ := hformed.jobStatus_owner current hmem
  exact hid ▸ hformed.instance_le i hi

/-- A record that is there is found. -/
theorem jobStatus_eq_ok {s : σ} {m : Memory} (hm : Carries s m) {id : InstanceId}
    {current : JobStatus} (hcurrent : m.jobStatus? id = some current) :
    (Tracker.jobStatus id s).answer = .ok current ∧ Carries (Tracker.jobStatus id s).state m := by
  have hknown := (hcarries.wellFormed hm).knows_jobStatus hcurrent
  obtain ⟨hanswer, hnext⟩ := hcarries.lookedUp _ hm hknown
  have hfound : (perform (.findJobStatus id) s).answer = .ok (some current) := by
    rw [hanswer, ← hcurrent]
    rfl
  obtain ⟨hok, hstate⟩ := bind_ok hfound fun found =>
    (ofOption ⟨.notFound, .jobStatus id⟩ found : Action LedgerError σ JobStatus)
  exact ⟨hok, hstate ▸ hnext⟩

omit hcarries in
/-- A job that was abandoned is not moved to another state. -/
theorem moveJobStatus_refuses {current next : JobStatus} (habandoned : current.status = .abandoned)
    (htarget : next.status ≠ .abandoned) (s : σ) :
    (Tracker.moveJobStatus current next s).answer = .error
        ⟨.invalidTransition, .leavesAbandoned (.job current.instanceId) next.status⟩ ∧
      (Tracker.moveJobStatus current next s).state = s := by
  obtain ⟨hanswer, hstate⟩ := ensureMove_refuses (.job current.instanceId) htarget s
  rw [← habandoned] at hanswer hstate
  have hrest := bind_error hanswer fun _ => do
    perform (.updateJobStatus next)
    report (.jobStatusUpdated next.instanceId current.status next.status)
    answer next
  exact ⟨hrest.1, hrest.2.trans hstate⟩

omit hcarries in
/-- The status record of a step is found under a step name. -/
theorem stepStatus_eq_ok {id : InstanceId} {step : String} {current : StepStatus} {s : σ}
    (hname : stepNameFault? step = none)
    (hfound : (perform (.findStepStatus id step) s).answer = .ok (some current)) :
    (Tracker.stepStatus id step s).answer = .ok current ∧
      (Tracker.stepStatus id step s).state = (perform (.findStepStatus id step) s).state := by
  rw [Tracker.stepStatus, ensureStepName_of_none hname]
  exact bind_ok hfound fun found =>
    (ofOption ⟨.notFound, .namedStepStatus id step⟩ found : Action LedgerError σ StepStatus)

/-- A move of the tracker is refused, and the store carries the ledger that it carried. -/
theorem moves_refused {s : σ} {m : Memory} (hm : Carries s m)
    (hheld : m.held? key = some .abandoned) {operation : Operation} {holder : StatusHolder}
    {target : BatchStatus} (hmoves : operation.Moves s key holder target)
    (htarget : target ≠ .abandoned) :
    (operation.perform s).answer = .error ⟨.invalidTransition, .leavesAbandoned holder target⟩ ∧
      Carries (operation.perform s).state m := by
  cases hmoves with
  | updateJobStatus status =>
    obtain ⟨current, hcurrent, habandoned⟩ := Option.map_eq_some_iff.mp hheld
    have hkey : current.instanceId = status.instanceId := key_of_find? JobStatus.instanceId hcurrent
    obtain ⟨hfound, hnext⟩ := jobStatus_eq_ok hcarries hm hcurrent
    obtain ⟨hanswer, hstate⟩ := moveJobStatus_refuses habandoned htarget
      (Tracker.jobStatus status.instanceId s).state
    have hmove := bind_ok hfound fun current => discard (Tracker.moveJobStatus current status)
    have hrest := bind_error hanswer fun _ => (answer () : Action LedgerError σ Unit)
    rw [hkey] at hrest
    exact ⟨hmove.1.trans hrest.1, (hmove.2.trans (hrest.2.trans hstate)) ▸ hnext⟩
  | moveJob hto =>
    rename_i id transition
    have hstep : transition.step? = none := by
      have hstays := hto { JobStatus.fresh id with status := .abandoned }
      cases transition with
      | exitStatus text | currentStep step | restartOn step => exact absurd hstays.symm htarget
      | _ => rfl
    obtain ⟨current, hcurrent, habandoned⟩ := Option.map_eq_some_iff.mp hheld
    have hkey : current.instanceId = id := key_of_find? JobStatus.instanceId hcurrent
    obtain ⟨hfound, hnext⟩ := jobStatus_eq_ok hcarries hm hcurrent
    obtain ⟨hanswer, hstate⟩ := moveJobStatus_refuses habandoned
      (fun heq => htarget ((hto current).symm.trans heq)) (Tracker.jobStatus id s).state
    have hmove := bind_ok hfound fun current =>
      (Tracker.moveJobStatus current (transition.apply current) : Action LedgerError σ JobStatus)
    rw [hto, hkey] at hanswer
    simp only [Operation.perform, Tracker.moveJob, hstep]
    exact ⟨hmove.1.trans hanswer, (hmove.2.trans hstate) ▸ hnext⟩
  | updateStepStatus hfound hkey =>
    rename_i id step status current
    have hcall root name : Call.findStepStatus id step ≠ .partitionMetrics root name := by
      intro h
      cases h
    obtain ⟨hsame, hnext⟩ := hcarries.answered (.findStepStatus id step) hm hcall hfound
    obtain ⟨hcurrent, hname⟩ :=
      (hcarries.wellFormed hm).stepStatus?_of_findStepStatus (Except.ok.inj hsame)
    have habandoned : current.status = .abandoned := by
      rw [hkey] at hcurrent
      rw [Memory.held?, hcurrent] at hheld
      exact Option.some.inj hheld
    obtain ⟨hlookup, hlooked⟩ := stepStatus_eq_ok hname hfound
    obtain ⟨hanswer, hstate⟩ := ensureMove_refuses (.step id step) htarget
      (Tracker.stepStatus id step s).state
    rw [← habandoned] at hanswer hstate
    have hmove := bind_ok hlookup fun current =>
      if current.statusId ≠ status.statusId then
        fail ⟨.invalid, .otherKey id step current.statusId status.statusId⟩
      else do
        Tracker.ensureMove (.step id step) current.status status.status
        perform (.updateStepStatus status)
        report (.stepStatusUpdated id step status.stepId status.status)
    rw [if_neg (not_not_intro hkey)] at hmove
    have hrest := bind_error hanswer fun _ => (do
      perform (.updateStepStatus status)
      report (.stepStatusUpdated id step status.stepId status.status) : Action LedgerError σ Unit)
    refine ⟨hmove.1.trans hrest.1, ?_⟩
    have hend := (hmove.2.trans hrest.2).trans (hstate.trans hlooked)
    exact hend ▸ hnext

/-! ## Both stores -/

/-- What a store that carries a ledger shows of an abandoned record stays. -/
theorem CarriesLedger.staysAbandoned {δ : Type} {kept : σ → δ}
    {held : δ → StatusKey → Except StoreError (Option BatchStatus)} (image : Memory → δ)
    (hkept : ∀ {s m}, Carries s m → kept s = image m)
    (hheld : ∀ {s m}, Carries s m → held (kept s) key = .ok (m.held? key)) {s : σ} {m : Memory}
    (hm : Carries s m) (habandoned : held (kept s) key = .ok (some .abandoned)) :
    StaysAbandoned kept held s key := by
  rw [hheld hm] at habandoned
  have hstart : m.held? key = some .abandoned := Except.ok.inj habandoned
  constructor
  · intro operations hchecked
    refine untilPurge_of_keeps (I := BearsAbandonedAlone Carries key)
      (J := Bears Carries fun m => m.OwnerGone key)
      (fun operation hmem hpurge => keeps_abandoned hcarries (hchecked operation hmem) hpurge)
      (fun _ tag => bears_purge hcarries fun hformed h => hformed.held?_remaining h tag)
      (fun _ => keeps_bears hcarries fun hformed hgone h => h.ownerGone hformed hgone) ?_ ?_
      ⟨m, hm, hstart⟩
    · rintro t ⟨n, hn, hlasts⟩
      rw [hheld hn, hlasts]
    · rintro t ⟨n, hn, hgone⟩
      rw [hheld hn, (hcarries.wellFormed hn).held?_eq_none hgone]
  · intro operation holder target hmoves htarget
    obtain ⟨hanswer, hnext⟩ := moves_refused hcarries hm hstart hmoves htarget
    exact ⟨hanswer, (hkept hnext).trans (hkept hm).symm⟩

end Carried

/-- After every run of operations on either store, a status record that holds `ABANDONED` does so for
good. -/
theorem staysAbandoned_reached (operations : List Operation) (key : StatusKey) :
    ((Operation.run Memory.empty operations).held? key = some .abandoned →
      StaysAbandoned id (fun m key => .ok (m.held? key)) (Operation.run Memory.empty operations)
        key) ∧
      ∀ {t : FileTree} {settings : StoreSettings} {place : Place} {l : OpenLedger},
        l.OpenedAt t settings place →
          (Operation.run l operations).database.held key = .ok (some .abandoned) →
            StaysAbandoned OpenLedger.database Database.held (Operation.run l operations) key := by
  constructor
  · intro habandoned
    exact Memory.carriesLedger.staysAbandoned id (fun h => h.1) (fun h => by rw [h.1])
      ⟨rfl, Memory.wellFormed_reached operations⟩ (congrArg Except.ok habandoned)
  · intro t settings place l hl habandoned
    obtain ⟨m, hm⟩ := hl.carries_run operations
    refine OpenLedger.carriesLedger.staysAbandoned Memory.database (fun h => h.database_eq)
      (fun h => ?_) hm habandoned
    rw [h.database_eq, Memory.held_database h.wellFormed h.storable]

/-- A job is abandoned; it is not started again, and is purged in the end. -/
theorem staysAbandoned_atStart :
    let nightly : InstanceId := ⟨1, by decide, by decide⟩
    let operations := [.call (.createInstance "load" "nightly" none), .createJobStatus nightly,
      .moveJob nightly (.status .abandoned)]
    let later := [.moveJob nightly (.exitStatus "given up"), .moveJob nightly (.status .started),
      .call (.purge "nightly"), .createJobStatus nightly]
    StaysAbandoned id (fun m key => .ok (m.held? key)) (Operation.run Memory.empty operations)
        (.job nightly) ∧
      UntilPurge (fun l : OpenLedger => l.database.held (.job nightly) = .ok (some .abandoned))
        (fun l => l.database.held (.job nightly) = .ok none)
        (Operation.run OpenLedger.atStart operations) later := by
  intro nightly operations later
  obtain ⟨hmemory, hfiles⟩ := staysAbandoned_reached operations (.job nightly)
  have hheld : ((Operation.run OpenLedger.atStart operations).database.held
      (.job nightly)).toOption = some (some .abandoned) := by decide +kernel
  have hchecked : ∀ operation ∈ later, ¬ operation.StoresUnchecked := by
    intro operation hmem
    simp only [later, List.mem_cons, List.not_mem_nil, or_false] at hmem
    rcases hmem with rfl | rfl | rfl | rfl <;> rintro (⟨status, h⟩ | ⟨status, h⟩) <;> cases h
  refine ⟨hmemory (by decide +kernel), ?_⟩
  exact (hfiles OpenLedger.openedAt_atStart (eq_ok_of_toOption hheld)).lasts later hchecked

end JobLedger
