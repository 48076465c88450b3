import JobLedger.Proofs.Desk
import JobLedger.Proofs.Durable.Locality

/-!
# Work on different instances

Operations that stay in the shares of different instances do not meet. The operations on an instance
find its part of the ledger as if there were no other ones, and leave it as if there were none; so
work on several instances may be interleaved in any way.
-/

namespace JobLedger

open JobLedger.Action

/-! ## What belongs to whom -/

/-- A share in a store is a share in the ledger that the store carries. -/
theorem CarriesLedger.marks {σ : Type} [LedgerStore σ] {Carries : σ → Memory → Prop}
    (hcarries : CarriesLedger Carries) {s : σ} {m : Memory} (hm : Carries s m) (id : InstanceId) :
    (Share.of s id).Marks m := by
  have hformed := hcarries.wellFormed hm
  constructor
  · intro e he
    have hfound := (hcarries.findExecution_eq_some_iff hm).mpr
      (hformed.execution?_eq_some_iff.mpr ⟨he, rfl⟩)
    have howner : Share.ownerOf? s e.id = some e.instanceId := by rw [Share.ownerOf?, hfound]; rfl
    exact decide_eq_decide.mpr (by rw [howner, Option.some_inj]; rfl)
  · intro row hrow
    have hfound := (hcarries.findStep_eq_some_iff hm).mpr
      (hformed.step?_eq_some_iff.mpr ⟨hrow, rfl⟩)
    have howner : Share.ownerOfStep? s row.id = Share.ownerOf? s row.executionId := by
      rw [Share.ownerOfStep?, hfound]; rfl
    exact decide_eq_decide.mpr (by rw [howner])

/-- A store that carries a ledger answers a call that stays in a share from the part of the ledger
that the share has. -/
def AnswersLocally {σ : Type} [LedgerStore σ] (Carries : σ → Memory → Prop) : Prop :=
  ∀ {share : Share} {call : Call} {s t : σ} {m n : Memory}, call.StaysIn share → Carries s m →
    Carries t n → share.Marks m → share.Marks n → share.part m = share.part n →
      (perform call s).answer = (perform call t).answer

/-- A ledger in memory answers by the share that a call stays in. -/
theorem Memory.answersLocally : AnswersLocally fun s m : Memory => s = m ∧ m.WellFormed := by
  rintro share call m n _ _ hcall ⟨rfl, hm⟩ ⟨rfl, hn⟩ hmarks hmarks' hpart
  rw [← (Share.confines_perform hm hmarks hcall).1, hpart,
    (Share.confines_perform hn hmarks' hcall).1]

/-- A session answers by the share of the ledger that a call stays in. -/
theorem OpenLedger.answersLocally : AnswersLocally OpenLedger.Carries :=
  fun hcall hm hn hmarks hmarks' hpart => Database.answer_eq_of_part serves hm.holds hn.holds
    hm.wellFormed hn.wellFormed hm.storable hn.storable hmarks hmarks' hpart hcall

/-! ## Stores with their ledgers -/

/-- A store, and the ledger that it carries along. -/
structure Shadowed (σ : Type) where
  store : σ
  ledger : Memory

namespace Shadowed

variable {σ : Type} [LedgerStore σ]

/-- A call on the store; what succeeds is done to the ledger as well. -/
instance : LedgerStore (Shadowed σ) where
  perform call s :=
    let outcome := LedgerStore.perform call s.store
    let ledger := match outcome.answer with
      | .ok _ => (LedgerStore.perform call s.ledger).state
      | .error _ => s.ledger
    ⟨outcome.answer, ⟨outcome.state, ledger⟩, outcome.events⟩

section Call

variable {s : Shadowed σ} {call : Call}

/-- A call that a store answers goes to the ledger beside it. -/
theorem ledger_of_ok {a : call.Answer} (h : (perform call s.store).answer = .ok a) :
    (perform call s).state.ledger = (perform call s.ledger).state := by
  change (match (perform call s.store).answer with
    | .ok _ => (perform call s.ledger).state
    | .error _ => s.ledger) = _
  rw [h]

/-- A call that a store refuses does not. -/
theorem ledger_of_error {e : LedgerError} (h : (perform call s.store).answer = .error e) :
    (perform call s).state.ledger = s.ledger := by
  change (match (perform call s.store).answer with
    | .ok _ => (perform call s.ledger).state
    | .error _ => s.ledger) = _
  rw [h]

end Call

/-- The ledger makes no difference to a run. -/
theorem store_run (s : Shadowed σ) (work : Work) : (work.run s).store = work.run s.store :=
  Operation.map_run (f := store) (fun _ _ => ⟨rfl, rfl⟩) s _

/-- The ledger makes no difference to the answers. -/
theorem answers_store (id : InstanceId) (s : Shadowed σ) (work : Work) :
    work.answers id s = work.answers id s.store := by
  induction work generalizing s with
  | nil => rfl
  | cons entry rest ih =>
    obtain ⟨hanswer, hnext⟩ := Operation.map_perform (f := store) (fun _ _ => ⟨rfl, rfl⟩) s entry.2
    rw [Work.answers, Work.answers, ih, hnext, hanswer]

end Shadowed

/-! ## One operation -/

section Operations

variable {σ : Type} [LedgerStore σ] {Carries : σ → Memory → Prop} {shares : InstanceId → Share}

/-- A store carries its ledger, of which every instance has its share. -/
structure Tracks (Carries : σ → Memory → Prop) (shares : InstanceId → Share) (s : Shadowed σ) :
    Prop where
  carries : Carries s.store s.ledger
  marks : ∀ id, (shares id).Marks s.ledger

/-- Two stores carry ledgers of which an instance has the same part. -/
structure SamePart (Carries : σ → Memory → Prop) (shares : InstanceId → Share) (id : InstanceId)
    (s t : Shadowed σ) : Prop where
  left : Tracks Carries shares s
  right : Tracks Carries shares t
  part : (shares id).part s.ledger = (shares id).part t.ledger

variable (hcarries : CarriesLedger Carries)

include hcarries

/-- The ledger beside a store follows it along calls that stay in a share. -/
theorem Tracks.perform {s : Shadowed σ} (h : Tracks Carries shares s) {stays : Share} {call : Call}
    (hcall : call.StaysIn stays) : Tracks Carries shares (LedgerStore.perform call s).state := by
  have hmetrics : ∀ root step, call ≠ .partitionMetrics root step := by
    rintro root step rfl
    exact hcall
  cases hanswer : (LedgerStore.perform call s.store).answer with
  | ok a =>
    have hledger := Shadowed.ledger_of_ok hanswer
    exact ⟨hledger ▸ (hcarries.answered call h.carries hmetrics hanswer).2,
      fun id => hledger ▸ (h.marks id).perform hcall⟩
  | error e =>
    have hledger := Shadowed.ledger_of_error hanswer
    exact ⟨hledger ▸ hcarries.failed call h.carries hanswer, fun id => hledger ▸ h.marks id⟩

variable {id other : InstanceId}

/-- A call that stays in the share of an instance is answered from its part, and changes it. -/
theorem answersAlike_of_staysIn (hlocal : AnswersLocally Carries) {call : Call}
    (hcall : call.StaysIn (shares id)) : AnswersAlike (SamePart Carries shares id) call := by
  intro s t h
  have hsame : (LedgerStore.perform call s.store).answer = (LedgerStore.perform call t.store).answer :=
    hlocal hcall h.left.carries h.right.carries (h.left.marks id) (h.right.marks id) h.part
  refine ⟨hsame, h.left.perform hcarries hcall, h.right.perform hcarries hcall, ?_⟩
  have hs := Share.confines_perform (hcarries.wellFormed h.left.carries) (h.left.marks id) hcall
  have ht := Share.confines_perform (hcarries.wellFormed h.right.carries) (h.right.marks id) hcall
  cases hanswer : (LedgerStore.perform call t.store).answer with
  | ok a =>
    rw [Shadowed.ledger_of_ok (hsame.trans hanswer), Shadowed.ledger_of_ok hanswer, ← hs.2, h.part,
      ht.2]
  | error e =>
    rw [Shadowed.ledger_of_error (hsame.trans hanswer), Shadowed.ledger_of_error hanswer, h.part]

/-- A call that stays in the share of another instance leaves the part. -/
theorem keepsPart_of_staysIn (hapart : (shares other).Apart (shares id)) {call : Call}
    (hcall : call.StaysIn (shares other)) (t : Shadowed σ) :
    Keeps (fun s => SamePart Carries shares id s t)
      (perform call : Action LedgerError (Shadowed σ) call.Answer) := by
  intro s h
  refine ⟨h.left.perform hcarries hcall, h.right, ?_⟩
  rw [← h.part]
  cases hanswer : (LedgerStore.perform call s.store).answer with
  | ok a => rw [Shadowed.ledger_of_ok hanswer, Share.part_perform_of_apart hapart hcall]
  | error e => rw [Shadowed.ledger_of_error hanswer]

/-- The status record that is found under an instance is that of the instance. -/
theorem Tracks.instanceId_of_found {s : Shadowed σ} (h : Tracks Carries shares s)
    {current : JobStatus}
    (hfound : (LedgerStore.perform (.findJobStatus id) s).answer = .ok (some current)) :
    current.instanceId = id := by
  have hledger := (hcarries.answered (.findJobStatus id) h.carries nofun hfound).1
  exact key_of_find? JobStatus.instanceId (Except.ok.inj hledger)

/-- An operation that stays in the share of an instance is answered from its part, and changes it. -/
theorem Operation.simulates_of_staysIn (hlocal : AnswersLocally Carries) {operation : Operation}
    (hstays : operation.StaysIn (shares id)) :
    Simulates (SamePart Carries shares id)
      (operation.perform : Action LedgerError (Shadowed σ) operation.Answer) operation.perform := by
  have hcall {call : Call} (h : call.StaysIn (shares id)) :=
    answersAlike_of_staysIn hcarries hlocal h
  cases operation with
  | moveJob own transition =>
    obtain rfl : own = (shares id).id := hstays
    refine Tracker.simulates_moveJob (A := fun current => current.instanceId = (shares id).id)
      (hcall rfl) (fun s t current h hfound => h.right.instanceId_of_found hcarries hfound)
      fun current hcurrent => hcall ?_
    exact (transition.apply_instanceId current).trans hcurrent
  | _ => exact Operation.simulates_perform fun call hmakes => hcall (hstays call hmakes)

/-- An operation that stays in the share of another instance leaves the part. -/
theorem Operation.keepsPart_of_staysIn (hapart : (shares other).Apart (shares id))
    {operation : Operation} (hstays : operation.StaysIn (shares other)) (t : Shadowed σ) :
    Keeps (fun s => SamePart Carries shares id s t)
      (operation.perform : Action LedgerError (Shadowed σ) operation.Answer) := by
  have hcall {call : Call} (h : call.StaysIn (shares other)) :=
    JobLedger.keepsPart_of_staysIn hcarries hapart h t
  cases operation with
  | moveJob own transition =>
    obtain rfl : own = (shares other).id := hstays
    refine Tracker.keeps_moveJob (A := fun current => current.instanceId = (shares other).id)
      (hcall rfl) (fun s current h hfound => h.left.instanceId_of_found hcarries hfound)
      fun current hcurrent => hcall ?_
    exact (transition.apply_instanceId current).trans hcurrent
  | _ => exact Operation.keeps_perform fun call hmakes => hcall (hstays call hmakes)

/-! ## Work -/

/-- The operations on an instance are answered as if there were no other ones, and leave its part of
the ledger as if there were none. -/
theorem Work.samePart_run (hlocal : AnswersLocally Carries)
    (hapart : ∀ {id other : InstanceId}, id ≠ other → (shares id).Apart (shares other)) {work : Work}
    (hstays : ∀ entry ∈ work, entry.2.StaysIn (shares entry.1)) {s t : Shadowed σ}
    (h : SamePart Carries shares id s t) :
    work.answers id s = Operation.answers t (work.of id) ∧
      SamePart Carries shares id (work.run s) (Operation.run t (work.of id)) := by
  induction work generalizing s t with
  | nil => exact ⟨rfl, h⟩
  | cons entry rest ih =>
    obtain ⟨other, operation⟩ := entry
    obtain ⟨hfirst, hrest⟩ := List.forall_mem_cons.mp hstays
    by_cases hother : other = id
    · subst hother
      obtain ⟨hanswer, hnext⟩ := Operation.simulates_of_staysIn hcarries hlocal hfirst s t h
      obtain ⟨hanswers, hrun⟩ := ih hrest hnext
      rw [Work.of_cons_same]
      refine ⟨?_, hrun⟩
      rw [Work.answers, if_pos rfl, Operation.answers, hanswer]
      exact congrArg _ hanswers
    · have hnext := Operation.keepsPart_of_staysIn hcarries (hapart hother) hfirst t s h
      obtain ⟨hanswers, hrun⟩ := ih hrest hnext
      rw [Work.of_cons_other hother]
      refine ⟨?_, hrun⟩
      rw [Work.answers, if_neg hother]
      exact hanswers

section Interleaved

variable (hlocal : AnswersLocally Carries) {sequences : InstanceId → List Operation}

include hlocal

/-- Interleaved sequences do to the part of an instance what its own sequence does. -/
theorem Work.samePart_of_interleaves {s : Shadowed σ} (hs : Carries s.store s.ledger)
    (hstays : ∀ id, ∀ operation ∈ sequences id, operation.StaysIn (Share.of s.store id)) {work : Work}
    (hwork : work.Interleaves sequences) (id : InstanceId) :
    work.answers id s = Operation.answers s (sequences id) ∧
      SamePart Carries (Share.of s.store) id (work.run s) (Operation.run s (sequences id)) := by
  have hstart : Tracks Carries (Share.of s.store) s := ⟨hs, fun id => hcarries.marks hs id⟩
  have hentries : ∀ entry ∈ work, entry.2.StaysIn (Share.of s.store entry.1) :=
    fun entry hentry => hstays entry.1 entry.2 (hwork entry.1 ▸ Work.mem_of.mpr hentry)
  rw [← hwork id]
  exact Work.samePart_run hcarries hlocal (Share.apart_of s.store) hentries ⟨hstart, hstart, rfl⟩

/-- Sequences that stay in the shares of their instances have the same answers however they are
interleaved, and lead to ledgers with the same contents. -/
theorem Work.sameContents_of_interleaves {s : σ} {m : Memory} (hm : Carries s m)
    (hstays : ∀ id, ∀ operation ∈ sequences id, operation.StaysIn (Share.of s id))
    {first second : Work} (hfirst : first.Interleaves sequences)
    (hsecond : second.Interleaves sequences) :
    (∀ id, first.answers id s = second.answers id s) ∧
      ∃ n n', Carries (first.run s) n ∧ Carries (second.run s) n' ∧ n.SameContents n' := by
  obtain ⟨start, rfl, rfl⟩ : ∃ start : Shadowed σ, start.store = s ∧ start.ledger = m :=
    ⟨⟨s, m⟩, rfl, rfl⟩
  have hrun {work : Work} (hwork : work.Interleaves sequences) :=
    Work.samePart_of_interleaves hcarries hlocal hm hstays hwork
  -- What is tracked does not depend on the instance.
  have htracks {work : Work} (hwork : work.Interleaves sequences) :=
    (hrun hwork ⟨1, by decide, by decide⟩).2.left
  have hanswers (id : InstanceId) : first.answers id start = second.answers id start :=
    (hrun hfirst id).1.trans (hrun hsecond id).1.symm
  simp only [Shadowed.answers_store] at hanswers
  refine ⟨hanswers, (first.run start).ledger, (second.run start).ledger, ?_, ?_, ?_⟩
  · exact start.store_run first ▸ (htracks hfirst).carries
  · exact start.store_run second ▸ (htracks hsecond).carries
  · have hid (id : InstanceId) : (Share.of start.store id).id = id := rfl
    exact Share.sameContents_of_parts (hcarries.wellFormed (htracks hfirst).carries)
      (hcarries.wellFormed (htracks hsecond).carries) hid (htracks hfirst).marks
      (htracks hsecond).marks fun id => (hrun hfirst id).2.part.trans (hrun hsecond id).2.part.symm

end Interleaved

end Operations

/-! ## Order -/

/-- Sequences of operations, each on what is in the share of its own instance, may be interleaved in
any way: every operation is answered the same, and the contents are the same in the end. -/
def OrderIndependent {σ : Type} [LedgerStore σ] (SameContents : σ → σ → Prop) (s : σ) : Prop :=
  ∀ sequences : InstanceId → List Operation,
    (∀ id, ∀ operation ∈ sequences id, operation.StaysIn (Share.of s id)) →
      ∀ first second : Work, first.Interleaves sequences → second.Interleaves sequences →
        (∀ id, first.answers id s = second.answers id s) ∧
          SameContents (first.run s) (second.run s)

/-- Two sessions have databases with the same contents. -/
def OpenLedger.SameContents (l other : OpenLedger) : Prop :=
  l.database.SameContents other.database

/-- In a well-formed ledger the order of work on different instances does not matter. -/
theorem Memory.WellFormed.orderIndependent {m : Memory} (hm : m.WellFormed) :
    OrderIndependent Memory.SameContents m := by
  intro sequences hstays first second hfirst hsecond
  have hcarried : m = m ∧ m.WellFormed := ⟨rfl, hm⟩
  obtain ⟨hanswers, n, n', ⟨hn, -⟩, ⟨hn', -⟩, hsame⟩ :=
    Work.sameContents_of_interleaves carriesLedger answersLocally hcarried hstays hfirst hsecond
  exact ⟨hanswers, hn ▸ hn' ▸ hsame⟩

/-- In a session on a ledger the order of work on different instances does not matter. -/
theorem OpenLedger.Carries.orderIndependent {l : OpenLedger} {m : Memory} (hm : l.Carries m) :
    OrderIndependent OpenLedger.SameContents l := by
  intro sequences hstays first second hfirst hsecond
  obtain ⟨hanswers, n, n', hn, hn', hsame⟩ :=
    Work.sameContents_of_interleaves carriesLedger answersLocally hm hstays hfirst hsecond
  refine ⟨hanswers, ?_⟩
  rw [SameContents, hn.database_eq, hn'.database_eq]
  exact hsame.database hn.wellFormed

/-- After every run of operations on either store, and however often a store in a file is opened again
by its path, work on different instances is independent of its order. -/
theorem orderIndependent_reached :
    (∀ operations, OrderIndependent Memory.SameContents (Operation.run Memory.empty operations)) ∧
      ∀ {t : FileTree} {settings : StoreSettings} {place : Place} {l : OpenLedger},
        l.OpenedAt t settings place →
          (∀ operations,
            OrderIndependent OpenLedger.SameContents (Operation.run l operations)) ∧
          ∀ turns : List Desk.Turn,
            (∀ other, .reopen other ∈ turns → other.path = settings.path) →
              ∀ s, (Desk.run ⟨t, none, []⟩ (.reopen settings :: turns)).store? = some s →
                OrderIndependent OpenLedger.SameContents s := by
  refine ⟨fun operations => (Memory.wellFormed_reached operations).orderIndependent, ?_⟩
  intro t settings place l hl
  constructor
  · intro operations
    obtain ⟨m, hm⟩ := hl.carries_run operations
    exact hm.orderIndependent
  · intro turns hpath s hs
    obtain ⟨m, hm⟩ := Desk.exists_carries hl hpath hs
    exact hm.orderIndependent

/-- A store is opened again with another journal, and two partitions of a step are worked on in turns
and one after the other; a status record that was not created is asked for in between. -/
theorem orderIndependent_atStart :
    let root : InstanceId := ⟨1, by decide, by decide⟩
    let left : InstanceId := ⟨2, by decide, by decide⟩
    let right : InstanceId := ⟨3, by decide, by decide⟩
    let leftExecution : ExecutionId := ⟨1, by decide, by decide⟩
    let rightExecution : ExecutionId := ⟨2, by decide, by decide⟩
    let rightStep : StepId := ⟨1, by decide, by decide⟩
    let settings : StoreSettings := { path := "ledger.db" }
    let turns : List Desk.Turn := [.operation (.call (.createInstance "load" "nightly" none)),
      .operation (.createPartitions root "copy" 2 "nightly"),
      .operation (.call (.createExecution left .empty .starting ⟨1⟩)),
      .operation (.call (.createExecution right .empty .starting ⟨2⟩)),
      .operation (.call (.createStep rightExecution "copy" StepMetrics.zero ⟨3⟩)),
      .reopen { settings with journalMode := .delete }]
    let inTurns : Work :=
      [(left, .createJobStatus left), (right, .incrementStartCount rightStep),
        (left, .call (.markStarted leftExecution ⟨4⟩)), (right, .createStepStatus rightStep),
        (left, .moveJob left (.status .started)), (right, .createCheckpoint right "copy")]
    let oneByOne : Work :=
      [(right, .incrementStartCount rightStep), (right, .createStepStatus rightStep),
        (right, .createCheckpoint right "copy"), (left, .createJobStatus left),
        (left, .call (.markStarted leftExecution ⟨4⟩)), (left, .moveJob left (.status .started))]
    ∃ s, (Desk.run ⟨.start, none, []⟩ (.reopen settings :: turns)).store? = some s ∧
      (∀ id, inTurns.answers id s = oneByOne.answers id s) ∧
        (inTurns.run s).SameContents (oneByOne.run s) := by
  intro root left right leftExecution rightExecution rightStep settings turns inTurns oneByOne
  have hopen : (Desk.run ⟨.start, none, []⟩ (.reopen settings :: turns)).store?.any (fun s =>
      (Share.of s left).executions leftExecution && (Share.of s right).steps rightStep) = true := by
    decide +kernel
  obtain ⟨s, hs, hshares⟩ := (Option.any_eq_true _ _).mp hopen
  obtain ⟨hexecution, hstep⟩ := (Bool.and_eq_true _ _).mp hshares
  have hpath : ∀ other, .reopen other ∈ turns → other.path = settings.path := by
    intro other hother
    simp only [turns, List.mem_cons, List.not_mem_nil, or_false, reduceCtorEq, false_or,
      Desk.Turn.reopen.injEq] at hother
    rw [hother]
  have hstays : ∀ id, ∀ operation ∈ inTurns.of id, operation.StaysIn (Share.of s id) := by
    intro id operation hmem
    have hentry := Work.mem_of.mp hmem
    simp only [inTurns, List.mem_cons, List.not_mem_nil, or_false, Prod.mk.injEq] at hentry
    rcases hentry with ⟨rfl, rfl⟩ | ⟨rfl, rfl⟩ | ⟨rfl, rfl⟩ | ⟨rfl, rfl⟩ | ⟨rfl, rfl⟩ | ⟨rfl, rfl⟩
    · rintro call rfl
      rfl
    · rintro call rfl
      exact hstep
    · rintro call rfl
      exact hexecution
    · rintro call rfl
      exact hstep
    · rfl
    · rintro call rfl
      rfl
  have hsame : oneByOne.Interleaves inTurns.of := by
    intro id
    by_cases hleft : left = id
    · subst hleft
      rfl
    · by_cases hright : right = id
      · subst hright
        rfl
      · simp [Work.of, inTurns, oneByOne, hleft, hright]
  exact ⟨s, hs, (orderIndependent_reached.2 OpenLedger.openedAt_atStart).2 turns hpath s hs
    inTurns.of hstays inTurns oneByOne (fun _ => rfl) hsame⟩

end JobLedger
