import JobLedger.Proofs.Abandoning
import JobLedger.Proofs.Moves.Fields

/-!
# A job status is the fold of its moves

Once the status record of an instance is created, both stores keep for it the fold of the moves that
are not refused, whatever else is asked of the ledger in between, until a record is purged or stored
unchecked. A database has room for the records that a frame holds, memory for all. The record that a
transition answers with is the one that is found from then on.
-/

namespace JobLedger

open JobLedger.Action

/-- The states of a store that carries a ledger, and in which a status record can be put in the
place of another one where there is room for it. -/
structure CarriesRecords {σ : Type} [LedgerStore σ] (room : JobStatus → Bool)
    (Carries : σ → Memory → Prop) : Prop extends CarriesLedger Carries where
  replaced {s m} {status old : JobStatus} : Carries s m →
    m.jobStatus? status.instanceId = some old → room status = true →
      (perform (.updateJobStatus status) s).answer = .ok () ∧
        Carries (perform (.updateJobStatus status) s).state (m.setJobStatus status)
  noRoom {s m} {status old : JobStatus} : Carries s m →
    m.jobStatus? status.instanceId = some old → room status = false →
      (perform (.updateJobStatus status) s).answer =
          .error ⟨.invalid, .blob (.named "job status") (.payload .tooLong)⟩ ∧
        Carries (perform (.updateJobStatus status) s).state m

/-- A store keeps for an instance the fold of its moves, beginning with a record, as long as no
operation overrides status records. -/
structure FoldsMoves {σ : Type} [LedgerStore σ] (room : JobStatus → Bool) (s : σ)
    (record : JobStatus) : Prop where
  /-- The record that is found is the fold of the moves that were not refused. -/
  keeps (operations : List Operation) :
    (∀ operation ∈ operations, ¬ operation.OverridesJobs) →
      (Tracker.jobStatus record.instanceId (Operation.run s operations)).answer =
        .ok (operations.foldl (JobStatus.after room) record)
  /-- A move is refused exactly for a reason that the record gives. -/
  refuses (operations : List Operation) {operation : Operation} (e : LedgerError) :
    (∀ operation ∈ operations, ¬ operation.OverridesJobs) →
      operation.movedJob? = some record.instanceId →
        ((operation.perform (Operation.run s operations)).answer = .error e ↔
          (operations.foldl (JobStatus.after room) record).moveRefusal? room operation = some e)
  /-- A transition answers with the record that is found from then on. -/
  returns (operations : List Operation) {transition : JobTransition} {next : JobStatus} :
    (∀ operation ∈ operations, ¬ operation.OverridesJobs) →
      let reached := Operation.run s operations
      let move := Operation.moveJob record.instanceId transition
      (Tracker.moveJob record.instanceId transition reached).answer = .ok next →
        (Tracker.jobStatus record.instanceId (move.next reached)).answer = .ok next
  /-- No operation makes a difference to a field that it does not name. -/
  leaves (operations : List Operation) {operation : Operation} {field : JobStatusField} :
    (∀ operation ∈ operations, ¬ operation.OverridesJobs) → ¬ operation.OverridesJobs →
      (∀ value ∈ operation.writes, value.field ≠ field) →
        let reached := Operation.run s operations
        ∃ current next : JobStatus,
          (Tracker.jobStatus record.instanceId reached).answer = .ok current ∧
            (Tracker.jobStatus record.instanceId (operation.next reached)).answer = .ok next ∧
              next.held field = current.held field

/-- Only a few operations store the status record of an instance. -/
theorem Operation.updatesJob_of_makes {operation : Operation} {status : JobStatus}
    (hmakes : operation.Makes (.updateJobStatus status)) :
    operation = .call (.updateJobStatus status) ∨ operation = .updateJobStatus status ∨
      ∃ id transition, operation = .moveJob id transition := by
  cases operation with
  | call call =>
    obtain rfl : Call.updateJobStatus status = call := hmakes
    exact .inl rfl
  | updateJobStatus other =>
    rcases hmakes with h | h
    · cases h
    · obtain rfl := Call.updateJobStatus.inj h
      exact .inr (.inl rfl)
  | moveJob id transition => exact .inr (.inr ⟨id, transition, rfl⟩)
  | updateStepStatus id step status | ensureCheckpoint id step =>
    rcases hmakes with h | h <;> cases h
  | partitionTotals root step =>
    rcases hmakes with h | ⟨_, h⟩ <;> cases h
  | aggregatePartitions root step parent time final =>
    rcases hmakes with (h | ⟨_, h⟩) | h | ⟨_, h⟩ <;> cases h
  | createPartitions root step count appTag | updateEncoded reader writer id step read written =>
    obtain ⟨_, h⟩ := hmakes
    cases h
  | _ => cases hmakes

namespace Memory

variable {m next : Memory} {id : InstanceId} {current : JobStatus}

/-- The record of an instance stays, unless a call stores another one for it or purges. -/
theorem Changes.jobStatus?_kept {call : Call} (h : Changes call m next)
    (hupdate : ∀ status, call = .updateJobStatus status → status.instanceId ≠ id)
    (hpurge : ∀ tag, call ≠ .purge tag) (hcurrent : m.jobStatus? id = some current) :
    next.jobStatus? id = some current := by
  rcases h.jobStatuses_cases with hrows | ⟨other, -, -, hrows⟩ | ⟨status, rfl, hrows⟩ |
    ⟨tag, rfl, -⟩
  · rw [jobStatus?, hrows]
    exact hcurrent
  · rw [jobStatus?, hrows]
    exact find?_append_of_some hcurrent
  · have hkey : ∀ old : JobStatus, old.instanceId = status.instanceId →
        status.instanceId = old.instanceId := fun old heq => heq.symm
    have hid : current.instanceId = id := key_of_find? JobStatus.instanceId hcurrent
    have hother : current.instanceId ≠ status.instanceId := fun heq =>
      hupdate status rfl (heq.symm.trans hid)
    rw [jobStatus?, hrows, find?_changeRow hkey, ← jobStatus?, hcurrent, Option.map_some,
      if_neg hother]
  · exact absurd rfl (hpurge tag)

/-- A record that is put in the place of another one is found. -/
theorem jobStatus?_setJobStatus {status : JobStatus} (hid : status.instanceId = id)
    (hcurrent : m.jobStatus? id = some current) :
    (m.setJobStatus status).jobStatus? id = some status := by
  have hkey : ∀ old : JobStatus, old.instanceId = status.instanceId →
      status.instanceId = old.instanceId := fun old heq => heq.symm
  have hsame : current.instanceId = status.instanceId := by
    rw [hid]
    exact key_of_find? JobStatus.instanceId hcurrent
  have hrows : (m.setJobStatus status).jobStatuses =
      changeRow JobStatus.instanceId status.instanceId (fun _ => status) m.jobStatuses := rfl
  rw [jobStatus?, hrows, find?_changeRow hkey, ← jobStatus?, hcurrent, Option.map_some,
    if_pos hsame]

end Memory

/-! ## One operation -/

section Carried

variable {σ : Type} [LedgerStore σ] {room : JobStatus → Bool} {Carries : σ → Memory → Prop}

/-- The record of an instance in the ledger of a store. -/
abbrev BearsRecord (Carries : σ → Memory → Prop) (record : JobStatus) : σ → Prop :=
  Bears Carries fun m => m.jobStatus? record.instanceId = some record

/-- A record is moved to another one, which gives an answer, or the move is refused and the record
is left. -/
structure Settles {α : Type} (Carries : σ → Memory → Prop) (current next : JobStatus)
    (refusal : Option LedgerError) (outcome : Outcome LedgerError σ α) (a : α) : Prop where
  answer : outcome.answer = refusal.elim (.ok a) .error
  record : BearsRecord Carries (if refusal = none then next else current) outcome.state

namespace Settles

variable {α : Type} {current next : JobStatus} {refusal : Option LedgerError}
  {outcome : Outcome LedgerError σ α} {a : α} (h : Settles Carries current next refusal outcome a)

include h

omit [LedgerStore σ] in
/-- An outcome is an error if it was refused for that error. -/
theorem answer_eq_error_iff (e : LedgerError) : outcome.answer = .error e ↔ refusal = some e := by
  rw [h.answer]
  cases refusal with
  | none => simp
  | some other => simp

omit [LedgerStore σ] in
/-- A move that is answered has left the record that it leads to. -/
theorem of_answer {b : α} (hanswer : outcome.answer = .ok b) :
    b = a ∧ BearsRecord Carries next outcome.state := by
  have hrecord := h.record
  rw [h.answer] at hanswer
  cases refusal with
  | none => exact ⟨(Except.ok.inj hanswer).symm, hrecord⟩
  | some e => cases hanswer

end Settles

variable (hcarries : CarriesRecords room Carries) {s : σ} {m : Memory} (hm : Carries s m)
  {current : JobStatus} (hcurrent : m.jobStatus? current.instanceId = some current)

include hcarries hm hcurrent

/-- A record of the same instance is put in the place of the current one, or refused. -/
theorem settles_moveJobStatus {next : JobStatus} (hid : next.instanceId = current.instanceId) :
    Settles Carries current next (current.refusal? room next)
      (Tracker.moveJobStatus current next s) next := by
  by_cases hleaves : current.status = .abandoned ∧ next.status ≠ .abandoned
  · obtain ⟨hanswer, hstate⟩ := moveJobStatus_refuses hleaves.1 hleaves.2 s
    have hrefusal : current.refusal? room next =
        some ⟨.invalidTransition, .leavesAbandoned (.job current.instanceId) next.status⟩ :=
      if_pos hleaves
    rw [hrefusal]
    exact ⟨hanswer, m, hstate.symm ▸ hm, hcurrent⟩
  · have hmay : BatchStatus.MayMove current.status next.status := fun habandoned =>
      Decidable.not_not.mp fun htarget => hleaves ⟨habandoned, htarget⟩
    have hmove : Tracker.moveJobStatus current next s = (do
        perform (.updateJobStatus next)
        report (.jobStatusUpdated next.instanceId current.status next.status)
        answer next : Action LedgerError σ JobStatus) s := by
      rw [Tracker.moveJobStatus, Tracker.ensureMove, if_pos hmay]
      rfl
    have hfound : m.jobStatus? next.instanceId = some current := hid.symm ▸ hcurrent
    rw [hmove, JobStatus.refusal?, if_neg hleaves]
    cases hroom : room next with
    | true =>
      obtain ⟨hanswer, hstate⟩ := hcarries.replaced hm hfound hroom
      obtain ⟨hok, hend⟩ := bind_ok hanswer fun _ => (do
        report (.jobStatusUpdated next.instanceId current.status next.status)
        answer next : Action LedgerError σ JobStatus)
      refine ⟨hok, m.setJobStatus next, hend.symm ▸ hstate, ?_⟩
      exact Memory.jobStatus?_setJobStatus rfl hfound
    | false =>
      obtain ⟨hanswer, hstate⟩ := hcarries.noRoom hm hfound hroom
      obtain ⟨herror, hend⟩ := bind_error hanswer fun _ => (do
        report (.jobStatusUpdated next.instanceId current.status next.status)
        answer next : Action LedgerError σ JobStatus)
      exact ⟨herror, m, hend.symm ▸ hstate, hcurrent⟩

/-- A transition is refused for its step name before anything is looked up. -/
theorem settles_moveJob (transition : JobTransition) :
    Settles Carries current (transition.apply current)
      (current.moveRefusal? room (.moveJob current.instanceId transition))
      (Tracker.moveJob current.instanceId transition s) (transition.apply current) := by
  cases hfault : transition.step?.bind stepNameFault? with
  | some fault =>
    have hrefusal : current.moveRefusal? room (.moveJob current.instanceId transition) =
        some ⟨.invalid, .stepName fault⟩ := by
      simp only [JobStatus.moveRefusal?, Operation.checkedStep?, hfault]
    obtain ⟨step, hstep, hname⟩ := Option.bind_eq_some_iff.mp hfault
    have hmove : Tracker.moveJob current.instanceId transition s =
        ⟨.error ⟨.invalid, .stepName fault⟩, s, []⟩ := by
      simp only [Tracker.moveJob, hstep, ensureStepName, hname]
      rfl
    rw [hrefusal, hmove]
    exact ⟨rfl, m, hm, hcurrent⟩
  | none =>
    have hrefusal : current.moveRefusal? room (.moveJob current.instanceId transition) =
        current.refusal? room (transition.apply current) := by
      simp only [JobStatus.moveRefusal?, Operation.checkedStep?, hfault, Operation.writes,
        JobTransition.apply_eq_writeAll]
    have hmove : Tracker.moveJob current.instanceId transition s =
        (Tracker.jobStatus current.instanceId >>= fun found =>
          Tracker.moveJobStatus found (transition.apply found)) s := by
      cases hstep : transition.step? with
      | none =>
        simp only [Tracker.moveJob, hstep]
        rfl
      | some step =>
        have hname : stepNameFault? step = none := by rwa [hstep] at hfault
        simp only [Tracker.moveJob, hstep, ensureStepName_of_none hname]
        rfl
    obtain ⟨hfound, hnext⟩ := jobStatus_eq_ok hcarries.toCarriesLedger hm hcurrent
    obtain ⟨hanswer, hstate⟩ := bind_ok hfound fun found =>
      (Tracker.moveJobStatus found (transition.apply found) : Action LedgerError σ JobStatus)
    have hsettled := settles_moveJobStatus hcarries hnext hcurrent
      (JobTransition.apply_instanceId current transition)
    rw [hrefusal, hmove]
    exact ⟨hanswer.trans hsettled.answer, hstate.symm ▸ hsettled.record⟩

/-- A record that is given as a whole takes the place of the current one, or is refused. -/
theorem settles_updateJobStatus {next : JobStatus} (hid : next.instanceId = current.instanceId) :
    Settles Carries current next (current.moveRefusal? room (.updateJobStatus next))
      (Tracker.updateJobStatus next s) () := by
  have hrefusal : current.moveRefusal? room (.updateJobStatus next) =
      current.refusal? room next := by
    simp only [JobStatus.moveRefusal?, Operation.checkedStep?, Operation.writes,
      JobStatus.writeAll_writes hid, Option.bind_none]
  obtain ⟨hfound, hnext⟩ := jobStatus_eq_ok hcarries.toCarriesLedger hm hcurrent
  obtain ⟨hanswer, hstate⟩ := bind_ok hfound fun found =>
    (discard (Tracker.moveJobStatus found next) : Action LedgerError σ Unit)
  have hsettled := settles_moveJobStatus hcarries hnext hcurrent hid
  obtain ⟨hlast, hend⟩ := bind_answer (Tracker.moveJobStatus current next) (fun _ => ())
    (Tracker.jobStatus current.instanceId s).state
  have hmove : Tracker.updateJobStatus next s =
      (Tracker.jobStatus current.instanceId >>= fun found =>
        discard (Tracker.moveJobStatus found next)) s := by
    rw [Tracker.updateJobStatus, hid]
  rw [hrefusal, hmove]
  refine ⟨?_, (hstate.trans hend).symm ▸ hsettled.record⟩
  refine (hanswer.trans hlast).trans ?_
  rw [hsettled.answer]
  cases current.refusal? room next with
  | none => rfl
  | some e => rfl

/-- An operation that moves the record is refused for the reason that the record gives, and leaves
the record that it makes of it. -/
theorem settles_perform {operation : Operation}
    (hmoved : operation.movedJob? = some current.instanceId) :
    (∀ e, (operation.perform s).answer = .error e ↔ current.moveRefusal? room operation = some e) ∧
      BearsRecord Carries (current.after room operation) (operation.next s) := by
  have hafter : current.after room operation =
      if current.moveRefusal? room operation = none then current.writeAll operation.writes
      else current := by
    simp only [JobStatus.after, hmoved, true_and]
  rw [hafter]
  cases operation with
  | moveJob id transition =>
    obtain rfl : id = current.instanceId := Option.some.inj hmoved
    have hsettled := settles_moveJob hcarries hm hcurrent transition
    rw [JobTransition.apply_eq_writeAll] at hsettled
    exact ⟨hsettled.answer_eq_error_iff, hsettled.record⟩
  | updateJobStatus next =>
    have hid : next.instanceId = current.instanceId := Option.some.inj hmoved
    have hsettled := settles_updateJobStatus hcarries hm hcurrent hid
    have hwrites : current.writeAll (Operation.updateJobStatus next).writes = next :=
      JobStatus.writeAll_writes hid
    rw [hwrites]
    exact ⟨hsettled.answer_eq_error_iff, hsettled.record⟩
  | _ => cases hmoved

end Carried

/-! ## Runs -/

section Carried

variable {σ : Type} [LedgerStore σ] {room : JobStatus → Bool} {Carries : σ → Memory → Prop}

/-- An operation that neither moves the record of an instance nor overrides records leaves it. -/
theorem CarriesLedger.keeps_record (hcarries : CarriesLedger Carries) {current : JobStatus}
    {operation : Operation} (hother : operation.movedJob? ≠ some current.instanceId)
    (hchecked : ¬ operation.OverridesJobs) :
    Keeps (BearsRecord Carries current)
      (operation.perform : Action LedgerError σ operation.Answer) := by
  have hcall {call : Call}
      (hupdate : ∀ status, call = .updateJobStatus status →
        status.instanceId ≠ current.instanceId) (hpurge : ∀ tag, call ≠ .purge tag) :
      Keeps (BearsRecord Carries current) (perform call : Action LedgerError σ call.Answer) :=
    keeps_bears hcarries fun _ hcurrent hchange => hchange.jobStatus?_kept hupdate hpurge hcurrent
  by_cases hmove : ∃ id transition, operation = .moveJob id transition
  · obtain ⟨id, transition, rfl⟩ := hmove
    have hid : id ≠ current.instanceId := fun heq => hother (congrArg some heq)
    refine Tracker.keeps_moveJob (A := fun found => found.instanceId = id) (hcall nofun nofun) ?_ ?_
    · rintro s found ⟨m, hm, -⟩ hfound
      have hsame := (hcarries.answered (.findJobStatus id) hm nofun hfound).1
      exact key_of_find? JobStatus.instanceId (Except.ok.inj hsame)
    · intro found hfound
      refine hcall (fun status hstatus => ?_) nofun
      rw [← Call.updateJobStatus.inj hstatus, JobTransition.apply_instanceId, hfound]
      exact hid
  · refine Operation.keeps_perform fun call hmakes => hcall ?_ ?_
    · rintro status rfl
      rcases Operation.updatesJob_of_makes hmakes with rfl | rfl | hmoves
      · exact absurd (.inr ⟨status, rfl⟩) hchecked
      · exact fun heq => hother (congrArg some heq)
      · exact absurd hmoves hmove
    · rintro tag rfl
      exact hchecked (.inl ⟨tag, Operation.eq_call_of_makes hmakes trivial⟩)

variable (hcarries : CarriesRecords room Carries)

include hcarries

/-- Whatever the operation, it leaves the record that it makes of the current one. -/
theorem CarriesRecords.after_next {s : σ} {current : JobStatus} {operation : Operation}
    (hchecked : ¬ operation.OverridesJobs) (hs : BearsRecord Carries current s) :
    BearsRecord Carries (current.after room operation) (operation.next s) := by
  by_cases hmoved : operation.movedJob? = some current.instanceId
  · obtain ⟨m, hm, hcurrent⟩ := hs
    exact (settles_perform hcarries hm hcurrent hmoved).2
  · rw [JobStatus.after, if_neg fun h => hmoved h.1]
    exact hcarries.keeps_record hmoved hchecked s hs

/-- A run leaves the fold of the moves. -/
theorem CarriesRecords.folds_run {s : σ} {record : JobStatus} {operations : List Operation}
    (hchecked : ∀ operation ∈ operations, ¬ operation.OverridesJobs)
    (hs : BearsRecord Carries record s) :
    BearsRecord Carries (operations.foldl (JobStatus.after room) record)
      (Operation.run s operations) := by
  induction operations generalizing s record with
  | nil => exact hs
  | cons operation rest ih =>
    obtain ⟨hfirst, hrest⟩ := List.forall_mem_cons.mp hchecked
    exact ih hrest (hcarries.after_next hfirst hs)

omit hcarries in
/-- Behind operations, a record is still that of its instance. -/
theorem instanceId_foldl_after (room : JobStatus → Bool) (record : JobStatus)
    (operations : List Operation) :
    (operations.foldl (JobStatus.after room) record).instanceId = record.instanceId := by
  induction operations generalizing record with
  | nil => rfl
  | cons operation rest ih => exact (ih _).trans (record.instanceId_after room operation)

omit hcarries in
/-- The record that a store bears is the one that it answers with. -/
theorem jobStatus_of_bears (hledger : CarriesLedger Carries) {s : σ} {record : JobStatus}
    (hs : BearsRecord Carries record s) :
    (Tracker.jobStatus record.instanceId s).answer = .ok record := by
  obtain ⟨m, hm, hrecord⟩ := hs
  exact (jobStatus_eq_ok hledger hm hrecord).1

/-- A store that bears a record keeps the fold of the moves from this record on. -/
theorem CarriesRecords.foldsMoves {s : σ} {record : JobStatus} (hs : BearsRecord Carries record s) :
    FoldsMoves room s record where
  keeps operations hchecked := by
    have hfound := jobStatus_of_bears hcarries.toCarriesLedger (hcarries.folds_run hchecked hs)
    rwa [instanceId_foldl_after] at hfound
  refuses operations operation e hchecked hmoved := by
    obtain ⟨m, hm, hcurrent⟩ := hcarries.folds_run hchecked hs
    rw [← instanceId_foldl_after room record operations] at hmoved
    exact (settles_perform hcarries hm hcurrent hmoved).1 e
  returns operations transition next hchecked := by
    intro reached move hanswer
    obtain ⟨m, hm, hcurrent⟩ := hcarries.folds_run hchecked hs
    have hid := instanceId_foldl_after room record operations
    have hsettled := settles_moveJob hcarries hm hcurrent transition
    rw [hid] at hsettled
    obtain ⟨rfl, hbears⟩ := hsettled.of_answer hanswer
    have hfound := jobStatus_of_bears hcarries.toCarriesLedger hbears
    rwa [JobTransition.apply_instanceId, hid] at hfound
  leaves operations operation field hchecked hspares hnames := by
    intro reached
    have hbears := hcarries.folds_run hchecked hs
    have hnext := hcarries.after_next hspares hbears
    have hid := instanceId_foldl_after room record operations
    have hbefore := jobStatus_of_bears hcarries.toCarriesLedger hbears
    have hafter := jobStatus_of_bears hcarries.toCarriesLedger hnext
    rw [JobStatus.instanceId_after] at hafter
    rw [hid] at hbefore hafter
    exact ⟨_, _, hbefore, hafter, JobStatus.held_after_of_ne room _ hnames⟩

omit hcarries in
/-- A record that is created is fresh, and borne from then on. -/
theorem CarriesLedger.bears_fresh (hledger : CarriesLedger Carries) {s : σ} {m : Memory}
    (hm : Carries s m) {id : InstanceId} {status : JobStatus}
    (hcreated : (Tracker.createJobStatus id s).answer = .ok status) :
    status = JobStatus.fresh id ∧
      BearsRecord Carries (.fresh id) (Operation.next s (.createJobStatus id)) := by
  obtain ⟨made, hmade, hanswer, hstate⟩ := bind_eq_ok hcreated
  obtain rfl : made = status := Except.ok.inj hanswer
  obtain ⟨hsame, hnext⟩ := hledger.answered (.createJobStatus id) hm nofun hmade
  have hchange : m.createJobStatus id = .ok (made, (perform (.createJobStatus id) m).state) := by
    rw [Memory.perform_eq] at hsame ⊢
    exact change_eq_ok hsame
  obtain ⟨i, -, -, rfl, hadded⟩ := Memory.createJobStatus_eq_ok hchange
  have hend : Operation.next s (.createJobStatus id) = (perform (.createJobStatus id) s).state :=
    hstate
  refine ⟨rfl, _, hend.symm ▸ hnext, (hledger.wellFormed hnext).jobStatus?_eq_some_iff.mpr ?_⟩
  rw [hadded]
  exact ⟨List.mem_append_right _ (List.mem_singleton_self _), rfl⟩

end Carried

/-! ## Both stores -/

/-- A ledger in memory has room for every record. -/
theorem Memory.carriesRecords :
    CarriesRecords (fun _ => true) fun s m : Memory => s = m ∧ m.WellFormed where
  toCarriesLedger := Memory.carriesLedger
  replaced {s m status old} := by
    rintro ⟨rfl, hformed⟩ hold -
    have hupdate : s.updateJobStatus status = .ok ((), s.setJobStatus status) := by
      rw [Memory.updateJobStatus, hold]
      rfl
    have hperform : LedgerStore.perform (.updateJobStatus status) s =
        ⟨.ok (), s.setJobStatus status, []⟩ := by
      rw [Memory.perform_eq]
      exact change_ok hupdate
    have hnext := Memory.keeps_wellFormed (.updateJobStatus status) s hformed
    rw [hperform] at hnext ⊢
    exact ⟨rfl, rfl, hnext⟩
  noRoom _ _ hroom := nomatch hroom

/-- A session has room for the records that a frame holds. -/
theorem OpenLedger.carriesRecords :
    CarriesRecords (fun status => decide (HasBlob status)) OpenLedger.Carries where
  toCarriesLedger := OpenLedger.carriesLedger
  replaced {l m status old} h hold hroom := by
    have hblob : HasBlob status := of_decide_eq_true hroom
    have hknown : m.KnowsNumber (.findJobStatus status.instanceId) :=
      h.wellFormed.knows_jobStatus hold
    have hupdate : m.updateJobStatus status = .ok ((), m.setJobStatus status) := by
      rw [Memory.updateJobStatus, hold]
      rfl
    have hperform : perform (.updateJobStatus status) m = ⟨.ok (), m.setJobStatus status, []⟩ := by
      rw [Memory.perform_eq]
      exact change_ok hupdate
    have hstorable : (perform (.updateJobStatus status) m).state.Storable := by
      rw [hperform]
      exact h.storable.setJobStatus hblob
    have hother (root : InstanceId) (step : String) :
        Call.updateJobStatus status ≠ .partitionMetrics root step := by
      intro heq
      cases heq
    have hagrees := h.agrees (.updateJobStatus status) hother
      ⟨(hknown.fits h.storable).1, hblob⟩ hstorable
    rwa [hperform] at hagrees
  noRoom {l m status old} h hold hroom := by
    have hblob : ¬ HasBlob status := of_decide_eq_false hroom
    have hid := ((h.wellFormed.knows_jobStatus hold).fits h.storable).1
    have hperform : perform (.updateJobStatus status) l =
        ⟨.error ⟨.invalid, .blob (.named "job status") (.payload .tooLong)⟩, l, []⟩ := by
      rw [Database.perform_of_ensured rfl, Database.performStored, rowOf_of_lt hid,
        blobOf_of_not_hasBlob hblob]
      rfl
    rw [hperform]
    exact ⟨rfl, h⟩

/-- Whatever led to a ledger, a status record that is created in it is fresh, and both stores keep
for its instance the fold of the moves that are not refused. A session on a file refuses one thing
more than a ledger in memory: a move whose record would be too long for a frame. -/
theorem foldsMoves_reached (operations : List Operation) (id : InstanceId) :
    (∀ {status : JobStatus},
      (Tracker.createJobStatus id (Operation.run Memory.empty operations)).answer = .ok status →
        status = .fresh id ∧ FoldsMoves (fun _ => true)
          (Operation.next (Operation.run Memory.empty operations) (.createJobStatus id))
          (.fresh id)) ∧
    ∀ {t : FileTree} {settings : StoreSettings} {place : Place} {l : OpenLedger},
      l.OpenedAt t settings place → ∀ {status : JobStatus},
        (Tracker.createJobStatus id (Operation.run l operations)).answer = .ok status →
          status = .fresh id ∧ FoldsMoves (fun status => decide (HasBlob status))
            (Operation.next (Operation.run l operations) (.createJobStatus id)) (.fresh id) := by
  constructor
  · intro status hcreated
    obtain ⟨rfl, hbears⟩ := Memory.carriesLedger.bears_fresh
      ⟨rfl, Memory.wellFormed_reached operations⟩ hcreated
    exact ⟨rfl, Memory.carriesRecords.foldsMoves hbears⟩
  · intro t settings place l hl status hcreated
    obtain ⟨m, hm⟩ := hl.carries_run operations
    obtain ⟨rfl, hbears⟩ := OpenLedger.carriesLedger.bears_fresh hm hcreated
    exact ⟨rfl, OpenLedger.carriesRecords.foldsMoves hbears⟩

/-- A job is abandoned in its first step. What it wrote last stays, and it is not started again,
while another job is. -/
theorem foldsMoves_atStart :
    let nightly : InstanceId := ⟨1, by decide, by decide⟩
    let weekly : InstanceId := ⟨2, by decide, by decide⟩
    let reached := Operation.next (Operation.run OpenLedger.atStart
      [.call (.createInstance "load" "nightly" none), .call (.createInstance "load" "weekly" none),
        .createJobStatus weekly]) (.createJobStatus nightly)
    let moves := [.moveJob nightly (.currentStep "copy"), .moveJob weekly (.status .started),
      .moveJob nightly (.outcome .abandoned "given up"), .moveJob nightly (.currentStep ""),
      .moveJob nightly (.advance ⟨1, by decide, by decide⟩)]
    FoldsMoves (fun status => decide (HasBlob status)) reached (.fresh nightly) ∧
      (Tracker.jobStatus nightly (Operation.run reached moves)).answer =
        .ok ⟨nightly, some "copy", .abandoned, some "given up", none, none⟩ := by
  intro nightly weekly reached moves
  have hcreated : (Tracker.createJobStatus nightly (Operation.run OpenLedger.atStart
      [.call (.createInstance "load" "nightly" none), .call (.createInstance "load" "weekly" none),
        .createJobStatus weekly])).answer = .ok (.fresh nightly) :=
    eq_ok_of_toOption (by decide +kernel)
  have hfolds := ((foldsMoves_reached _ nightly).2 OpenLedger.openedAt_atStart hcreated).2
  have hchecked : ∀ operation ∈ moves, ¬ operation.OverridesJobs := by
    intro operation hmem
    simp only [moves, List.mem_cons, List.not_mem_nil, or_false] at hmem
    rcases hmem with rfl | rfl | rfl | rfl | rfl <;> rintro (⟨_, h⟩ | ⟨_, h⟩) <;> cases h
  have hfold : moves.foldl (JobStatus.after fun status => decide (HasBlob status))
      (.fresh nightly) = ⟨nightly, some "copy", .abandoned, some "given up", none, none⟩ := by
    decide +kernel
  exact ⟨hfolds, hfold ▸ hfolds.keeps moves hchecked⟩

end JobLedger
