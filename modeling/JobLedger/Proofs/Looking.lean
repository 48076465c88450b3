import JobLedger.Proofs.Files.Atomic
import JobLedger.Proofs.Rendering

/-!
# Answers to one who only looks

A query is refused for what it asks, or looks at the database once. As a session finds the same
database at each of its turns, what a command has put together from several answers is what it would
have been told all at once.
-/

namespace JobLedger

open JobLedger.Action

namespace Database

variable {σ α : Type} [KeepsDatabase σ]

/-- An action is refused in whatever state, or answers with what it finds in the database once. -/
def LooksOnce (x : Action StoreError σ α) : Prop :=
  (∃ e, ∀ s, (x s).answer = .error e) ∨
    ∃ (operation : String) (query : Database → Except StoreError α), ∀ s, (x s).answer =
      (KeepsDatabase.readable s operation >>= query)

/-- A read looks at the database once. -/
theorem looksOnce_read (operation : String) (query : Database → Except StoreError α) :
    LooksOnce (read operation query : Action StoreError σ α) :=
  .inr ⟨operation, query, fun _ => rfl⟩

/-- A read of one row looks once, unless its number is refused. -/
theorem looksOnce_readRow {entity : Entity} (operation : String) (id : Id entity)
    (query : Int → Database → Except StoreError α) :
    LooksOnce (readRow operation id query : Action StoreError σ α) := by
  rw [readRow]
  cases rowOf id with
  | error e => exact .inl ⟨e, fun _ => rfl⟩
  | ok row => exact .inr ⟨operation, query row, fun _ => rfl⟩

/-- Reading the counts of partitions looks once. -/
theorem looksOnce_loadPartitions (root : InstanceId) (step : String) :
    LooksOnce (loadPartitions root step : Action StoreError σ (List StepMetrics)) := by
  let counts := partitionMetrics root step
  refine .inr ⟨"partition step metrics", counts, fun s => ?_⟩
  change _ = (read "partition step metrics" counts s).answer
  cases hread : (read "partition step metrics" counts s).answer with
  | error e => rw [loadPartitions, (bind_error hread _).1]
  | ok rows =>
    rw [loadPartitions, (bind_ok hread _).1]
    rfl

/-- Queries look once. -/
theorem looksOnce_performStored {call : Call} (hquery : call.IsQuery) (hready : call ≠ .readiness) :
    LooksOnce (performStored call : Action StoreError σ call.Answer) := by
  cases call with
  | countInstances | pageInstances | externalInstances | runningExecutions | findPair =>
    exact looksOnce_read _ _
  | findInstance | tagOfInstance | findExecution | executionsOf | instanceOf | parametersOf
  | tagOfExecution | latestExecution | findStep | stepsOf | recentSteps | findJobStatus
  | jobStatusOf | findStepStatus =>
    exact looksOnce_readRow _ _ _
  | partitionMetrics root step => exact looksOnce_loadPartitions root step
  | readiness => exact absurd rfl hready
  | _ => exact hquery.elim

/-- A query is not asked for a step name. -/
theorem answer_perform_query {call : Call} (hquery : call.IsQuery) (s : σ) :
    (LedgerStore.perform call s).answer =
      (performStored call s).answer.mapError StoreError.toLedger := by
  have hensure : (ensureCall call : Action LedgerError σ Unit) = answer () := by
    cases call with
    | createStep | createPair => exact hquery.elim
    | _ => rfl
  change ((ensureCall call >>= fun _ => mapError StoreError.toLedger (performStored call)) s).answer = _
  rw [hensure]
  rfl

end Database

namespace OpenLedger

/-- The database that the readers of a session find. -/
def seen (l : OpenLedger) : Database :=
  match l.session with
  | .ledger home .. => (l.files.ledgerAt home).database
  | .own _ => .blank
  | .fixed db => db

/-- A reader that answers finds the database that all readers find. -/
theorem readable_eq_ok {l : OpenLedger} {operation : String} {found : Database}
    (h : l.readable operation = .ok found) : found = l.seen ∧ l.readFault? = none := by
  obtain ⟨u, hfault, hfound⟩ := bind_eq_ok_iff.mp h
  refine ⟨?_, eq_none_of_refuse hfault⟩
  obtain ⟨t, session⟩ := l
  cases session <;> exact (Except.ok.inj hfound).symm

/-- With nothing in its way, a reader finds what all readers find. -/
theorem readable_of_readFault? {l : OpenLedger} (h : l.readFault? = none) (operation : String) :
    l.readable operation = .ok l.seen := by
  obtain ⟨t, session⟩ := l
  rw [readable, h]
  cases session <;> rfl

/-- A reader leaves what readers find. -/
theorem seen_turn (l : OpenLedger) : (turn l).seen = l.seen := by
  obtain ⟨t, session⟩ := l
  cases session with
  | ledger home mayWrite readers =>
    obtain ⟨after, attached, others, hturn, hledger⟩ := turn_ledger t home mayWrite readers
    rw [hturn, seen]
    dsimp only
    rw [hledger]
    rfl
  | own db => rfl
  | fixed db => rfl

section Queries

variable {l now : OpenLedger} {call : Call} {a : call.Answer} (hquery : call.IsQuery)
  (hready : call ≠ .readiness)

include hquery hready

/-- Nothing is in the way of a query that is answered. -/
theorem readFault?_of_answer (h : (perform call l).answer = .ok a) : l.readFault? = none := by
  rw [Database.answer_perform_query hquery] at h
  have hanswer := eq_ok_of_mapError h
  rcases Database.looksOnce_performStored (σ := OpenLedger) hquery hready with
    ⟨e, hfails⟩ | ⟨operation, query, hlooks⟩
  · exact nomatch (hfails l).symm.trans hanswer
  · obtain ⟨found, hfound, -⟩ := bind_eq_ok_iff.mp ((hlooks l).symm.trans hanswer)
    exact (readable_eq_ok hfound).2

/-- A query that is answered when readers have had their turns would have been answered so before. -/
theorem answer_of_seen (hopen : l.readFault? = none) (hseen : now.seen = l.seen)
    (h : (perform call now).answer = .ok a) : (perform call l).answer = .ok a := by
  rw [Database.answer_perform_query hquery] at h ⊢
  have hanswer := eq_ok_of_mapError h
  rcases Database.looksOnce_performStored (σ := OpenLedger) hquery hready with
    ⟨e, hfails⟩ | ⟨operation, query, hlooks⟩
  · exact nomatch (hfails now).symm.trans hanswer
  · obtain ⟨found, hfound, hanswer⟩ := bind_eq_ok_iff.mp ((hlooks now).symm.trans hanswer)
    rw [(readable_eq_ok hfound).1, hseen] at hanswer
    have hreadable : KeepsDatabase.readable l operation = .ok l.seen :=
      readable_of_readFault? hopen operation
    rw [hlooks l, hreadable, ok_bind, hanswer]
    rfl

omit hready in
/-- What readers find is the same behind a query. -/
theorem seen_perform : (perform call l).state.seen = l.seen :=
  Database.keeps_perform (P := fun now : OpenLedger => now.seen = l.seen)
    (fun now hnow => (seen_turn now).trans hnow) call hquery l rfl

end Queries

/-- Instances that are found one after the other would have been found all at once. -/
theorem found_of_findEach {l : OpenLedger} {now : Console OpenLedger} (hopen : l.readFault? = none)
    (hseen : now.inner.seen = l.seen) {ids : List InstanceId} {instances : List JobInstance}
    (h : (Command.findEach ids now).answer = .ok instances) :
    List.Forall₂ (fun id found => (perform (.findInstance id) l).answer = .ok (some found)) ids
      instances := by
  -- Each lookup leaves another session, in which readers find what they found at first.
  induction ids generalizing now instances with
  | nil =>
    obtain rfl := Except.ok.inj h
    exact .nil
  | cons id rest ih =>
    obtain ⟨first, others, hfound, hothers, rfl⟩ := Command.findEach_eq_ok h
    rw [Console.answer_call] at hfound
    have hquery : (Call.findInstance id).IsQuery := trivial
    have hnow : (perform (.findInstance id) now).state.inner.seen = l.seen := by
      rw [Console.inner_call, seen_perform hquery, hseen]
    exact .cons (answer_of_seen trivial nofun hopen hseen hfound) (ih hnow hothers)

/-- What a command writes that succeeds is the rendering of what the session answers where it starts. -/
theorem renders_perform {l : OpenLedger} {c : Command} {text : String}
    (h : (c.perform ⟨l, text⟩).answer = .ok ()) : ∃ value, c.Renders l value ∧
      (c.perform ⟨l, text⟩).state.output = text ++ (value.pretty ++ "\n") := by
  have hspares (call : Call) : Spares Console.output
      (LedgerStore.perform call : Action LedgerError (Console OpenLedger) call.Answer) :=
    Console.spares_call call
  cases c with
  | instances name appTag start count =>
    cases name with
    | none =>
      rw [Command.perform] at h ⊢
      obtain ⟨entries, hentries, hwritten⟩ :=
        Console.output_of_writeJson (hspares .externalInstances) h
      rw [Console.answer_call] at hentries
      exact ⟨_, ⟨entries, hentries, rfl⟩, hwritten⟩
    | some name =>
      rw [Command.perform, Command.pageInstances] at h ⊢
      obtain ⟨total, htotal, h, hcounting⟩ := bind_eq_ok h
      obtain ⟨ids, hids, h, hpaging⟩ := bind_eq_ok h
      obtain ⟨instances, hinstances, hwritten⟩ := Console.output_of_writeJson
        (fun d => Command.keeps_findEach (fun call _ => hspares call d) ids) h
      rw [Console.answer_call] at htotal hids
      rw [Console.inner_call] at hids
      have hcount : (Call.countInstances name appTag).IsQuery := trivial
      have hpage : (Call.pageInstances name appTag start count).IsQuery := trivial
      have hopen : l.readFault? = none := readFault?_of_answer hcount nofun htotal
      have hcounted : (perform (.countInstances name appTag) l).state.seen = l.seen :=
        seen_perform hcount
      have hpaged : (perform (.pageInstances name appTag start count)
          (perform (.countInstances name appTag)
            (⟨l, text⟩ : Console OpenLedger)).state).state.inner.seen = l.seen := by
        rw [Console.inner_call, seen_perform hpage, Console.inner_call, hcounted]
      refine ⟨_, ⟨total, ids, instances, htotal, answer_of_seen hpage nofun hopen hcounted hids,
        found_of_findEach hopen hpaged hinstances, rfl⟩, ?_⟩
      rw [hcounting, hpaging, hwritten, Console.output_call, Console.output_call]
  | executions id | steps id | recentSteps id | running jobName | purge appTag =>
    rw [Command.perform] at h ⊢
    obtain ⟨answer, hanswer, hwritten⟩ := Console.output_of_writeJson (hspares _) h
    rw [Console.answer_call] at hanswer
    exact ⟨_, ⟨answer, hanswer, rfl⟩, hwritten⟩
  | execution id =>
    rw [Command.perform] at h ⊢
    obtain ⟨found, hfound, h, hfinding⟩ := bind_eq_ok h
    obtain ⟨row, hrow, hwritten⟩ :=
      Console.output_of_writeJson (fun _ => Keeps.ofOption _ found) h
    rw [ofOption_apply] at hrow
    obtain rfl := FileTree.eq_some_of_elim hrow
    rw [Console.answer_call] at hfound
    exact ⟨_, ⟨row, hfound, rfl⟩, by rw [hfinding, hwritten, Console.output_call]⟩
  | jobStatus id =>
    rw [Command.perform] at h ⊢
    obtain ⟨status, hstatus, hwritten⟩ := Console.output_of_writeJson
      (fun d => Tracker.keeps_jobStatus (hspares (.findJobStatus id) d)) h
    have hfound := Tracker.perform_of_jobStatus hstatus
    rw [Console.answer_call] at hfound
    exact ⟨_, ⟨status, hfound, rfl⟩, hwritten⟩
  | stepStatus id step =>
    rw [Command.perform] at h ⊢
    obtain ⟨status, hstatus, hwritten⟩ := Console.output_of_writeJson
      (fun d => Tracker.keeps_stepStatus (hspares (.findStepStatus id step) d)) h
    have hfound := Tracker.perform_of_stepStatus hstatus
    rw [Console.answer_call] at hfound
    exact ⟨_, ⟨status, hfound, rfl⟩, hwritten⟩
  | checkpoint id step =>
    rw [Command.perform] at h ⊢
    obtain ⟨pair, hpair, hwritten⟩ := Console.output_of_writeJson
      (fun d => Checkpoint.keeps_get (hspares (.findPair id step) d)) h
    have hfound := Checkpoint.perform_of_get hpair
    rw [Console.answer_call] at hfound
    exact ⟨_, ⟨pair, hfound, rfl⟩, hwritten⟩
  | readiness =>
    rw [Command.perform] at h ⊢
    obtain ⟨_, hready, hwritten⟩ := Console.output_of_writeJson (hspares .readiness) h
    rw [Console.answer_call] at hready
    exact ⟨_, ⟨hready, rfl⟩, hwritten⟩

end OpenLedger

end JobLedger
