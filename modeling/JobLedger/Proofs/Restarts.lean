import JobLedger.Proofs.Desk
import JobLedger.Proofs.Files.Restarting

/-!
# Openings that make no difference

A session that has its file to itself answers every operation as the file alone would, if nobody
used it and it were simply read and written. What the file is has nothing to do with how often the
store was opened, under which settings, or how its journal is kept. So a store may be closed and
opened again between any two operations, and nobody who only sees the answers can tell.
-/

namespace JobLedger

open JobLedger.Action

namespace OpenLedger

variable {first : FileTree} {place : Place}

/-- A session works on the file at a place like on a file of its own that nobody has locked. -/
def WorksAs (first : FileTree) (place : Place) (l : OpenLedger) (f : LedgerFile) : Prop :=
  l.KeepsAt first place f.database ∧ f.lock = none ∧ f.database.IsComplete

/-- A session and a file of its own answer alike. -/
theorem alike_worksAs (first : FileTree) (place : Place) :
    Database.Alike (WorksAs first place) where
  readable := by
    rintro ⟨t, session⟩ f ⟨⟨readers, g, rfl, hfile, hdatabase, -⟩, hlock, -⟩ operation
    refine (readable_eq hfile true readers operation).trans ?_
    change _ = f.readable operation
    simp [LedgerFile.readable, LedgerFile.isShut, hlock, hdatabase]
  isReady := by
    rintro ⟨t, session⟩ f ⟨⟨readers, g, rfl, hfile, -, -⟩, -, -⟩ operation
    exact isReady_eq hfile true readers operation
  writable := by
    rintro ⟨t, session⟩ f ⟨⟨readers, g, rfl, hfile, hdatabase, -⟩, hlock, -⟩ operation
    refine (writable_eq hfile readers operation).trans ?_
    change _ = f.writable operation
    simp [LedgerFile.writable, hlock, hdatabase]
  isComplete := by
    rintro l f ⟨-, hlock, hcomplete⟩ operation found hfound
    change f.writable operation = .ok found at hfound
    rw [LedgerFile.writable, hlock] at hfound
    exact Except.ok.inj hfound ▸ hcomplete
  keep := by
    rintro l f ⟨hkeeps, hlock, -⟩ next hnext
    exact ⟨hkeeps.keep hnext.ne_blank, hlock, hnext⟩
  turn := by
    rintro l f ⟨hkeeps, hlock, hcomplete⟩
    exact ⟨hkeeps.turn hcomplete.ne_blank, hlock, hcomplete⟩

end OpenLedger

namespace Desk

/-- A turn is an operation. -/
def Turn.isOperation : Turn → Bool
  | .operation _ => true
  | .reopen _ => false

/-- The answer to an operation, while the store is open. -/
def answer? (d : Desk) (operation : Operation) : Option (Except LedgerError operation.Answer) :=
  d.store?.map fun l => (operation.perform l).answer

/-- The answers to the operations among turns, in order. -/
def answers (d : Desk) :
    List Turn → List ((operation : Operation) × Option (Except LedgerError operation.Answer))
  | [] => []
  | .operation operation :: rest =>
    ⟨operation, d.answer? operation⟩ :: (d.next (.operation operation)).answers rest
  | .reopen settings :: rest => (d.next (.reopen settings)).answers rest

/-- A store is open at a desk that works on the file at a place like on a file of its own. -/
def WorksAs (first : FileTree) (place : Place) (d : Desk) (f : LedgerFile) : Prop :=
  ∃ l, d.store? = some l ∧ l.WorksAs first place f

variable {first : FileTree} {place : Place} {d : Desk} {f : LedgerFile}

namespace WorksAs

/-- A desk that works as a file answers as the file does. -/
theorem answer? (h : d.WorksAs first place f) (operation : Operation) :
    d.answer? operation = some (operation.perform f).answer := by
  obtain ⟨l, hstore, hworks⟩ := h
  have halike : Simulates (OpenLedger.WorksAs first place) operation.perform operation.perform :=
    Operation.simulates_perform fun call _ =>
      (OpenLedger.alike_worksAs first place).answersAlike call
  rw [Desk.answer?, hstore, Option.map_some, (halike l f hworks).1]

/-- It works as the file does behind the operation. -/
theorem performed (h : d.WorksAs first place f) (operation : Operation) :
    (d.performed operation).WorksAs first place (operation.next f) := by
  obtain ⟨files, session, log⟩ := d
  obtain ⟨l, hstore, hworks⟩ := h
  obtain ⟨session, rfl, rfl⟩ := Option.map_eq_some_iff.mp hstore
  -- The log goes along with the store.
  have halike : Simulates (fun (s : Logged OpenLedger) f => s.store.WorksAs first place f)
      operation.perform operation.perform := Operation.simulates_perform fun call _ s f hsf =>
    (OpenLedger.alike_worksAs first place).answersAlike call s.store f hsf
  exact ⟨_, rfl, (halike ⟨⟨files, session⟩, log⟩ f hworks).2⟩

end WorksAs

/-- A store that is opened on a file that rests with a complete schema works on it. -/
theorem worksAs_reopened {settings : StoreSettings} (hlock : f.lock = none)
    (hcomplete : f.database.IsComplete) (hopens : d.closed.OpensAt settings place)
    (hrests : FileTree.RestsAt first place (· = f.database)
      (FileTree.openStore settings d.closed).state) :
    (d.reopened settings).WorksAs first place f := by
  obtain ⟨readers, hanswer⟩ := hopens.answer
  rw [reopened_ok hanswer]
  exact ⟨_, rfl, OpenLedger.keepsAt_attach hcomplete.ne_blank hrests readers, hlock, hcomplete⟩

/-- Opening the store again changes nothing for it. -/
theorem WorksAs.reopened (h : d.WorksAs first place f) (hhold : first.MayHold place)
    {settings : StoreSettings}
    (hsettings : first.IsNamed settings place ∨ d.closed.OpensAt settings place) :
    (d.reopened settings).WorksAs first place f := by
  obtain ⟨l, hstore, hkeeps, hlock, hcomplete⟩ := h
  have hrests : FileTree.RestsAt first place (· = f.database) d.closed := by
    obtain ⟨session, hsession, rfl⟩ := Option.map_eq_some_iff.mp hstore
    rw [closed, hsession]
    exact hkeeps.restsAt_detach
  have hopens : d.closed.OpensAt settings place :=
    hsettings.elim (fun hnamed => hrests.opensAt hcomplete hnamed hhold) id
  exact worksAs_reopened hlock hcomplete hopens (hopens.keeps_restsAt hcomplete hrests)

/-- The store works from the first opening on. -/
theorem exists_worksAs {t : FileTree} {s : StoreSettings} (h : t.OpensAt s place) :
    ∃ f, (next ⟨t, none, []⟩ (.reopen s)).WorksAs (FileTree.makeParent s.path t).state place f := by
  obtain ⟨db, hcomplete, hrests⟩ := h.exists_restsAt
  exact ⟨{ LedgerFile.blank with database := db },
    worksAs_reopened (d := ⟨t, none, []⟩) rfl hcomplete h hrests⟩

/-- The answers of a file to the operations among turns. -/
def fileAnswers (f : LedgerFile) :
    List Turn → List ((operation : Operation) × Option (Except LedgerError operation.Answer))
  | [] => []
  | .operation operation :: rest =>
    ⟨operation, some (operation.perform f).answer⟩ :: fileAnswers (operation.next f) rest
  | .reopen _ :: rest => fileAnswers f rest

/-- A file does not see that its store is opened again. -/
theorem fileAnswers_filter (f : LedgerFile) (turns : List Turn) :
    fileAnswers f (turns.filter Turn.isOperation) = fileAnswers f turns := by
  induction turns generalizing f with
  | nil => rfl
  | cons turn rest ih =>
    cases turn with
    | operation operation => rw [List.filter_cons_of_pos rfl, fileAnswers, fileAnswers, ih]
    | reopen settings => exact ih f

/-- A file has an answer to every operation. -/
theorem isSome_of_mem_fileAnswers {turns : List Turn} :
    ∀ given ∈ fileAnswers f turns, given.2.isSome := by
  induction turns generalizing f with
  | nil => exact fun _ hmem => absurd hmem List.not_mem_nil
  | cons turn rest ih =>
    cases turn with
    | operation operation =>
      rw [fileAnswers]
      exact List.forall_mem_cons.mpr ⟨rfl, ih⟩
    | reopen settings => exact ih

/-- The operations among turns are answered as a file of its own answers them, however often the
store is opened again in between. -/
theorem WorksAs.answers_eq (h : d.WorksAs first place f) (hhold : first.MayHold place)
    {turns : List Turn} (hagain : ∀ before settings, before ++ [.reopen settings] <+: turns →
      first.IsNamed settings place ∨ (run d before).closed.OpensAt settings place) :
    d.answers turns = fileAnswers f turns := by
  -- Opening the store again makes another desk of it, for which the file is the same.
  induction turns generalizing d f with
  | nil => rfl
  | cons turn rest ih =>
    have hrest : ∀ before settings, before ++ [.reopen settings] <+: rest →
        first.IsNamed settings place ∨
          (run (d.next turn) before).closed.OpensAt settings place :=
      fun before settings hprefix =>
        hagain (turn :: before) settings (List.cons_prefix_cons.mpr ⟨rfl, hprefix⟩)
    cases turn with
    | operation operation =>
      rw [answers, fileAnswers, h.answer? operation]
      exact congrArg _ (ih (h.performed operation) hrest)
    | reopen settings =>
      have hsettings := hagain [] settings (List.cons_prefix_cons.mpr ⟨rfl, List.nil_prefix⟩)
      exact ih (h.reopened hhold hsettings) hrest

/-- A store is opened for writing on a file that nobody else uses. It may be closed and opened again
at any points between operations, under settings that name the file or that do open it at that point.
Then each operation has the answer that it has if the store is never opened again. -/
theorem answers_of_reopenings {t : FileTree} {s : StoreSettings} {place : Place}
    (hfirst : t.OpensAt s place) {turns : List Turn}
    (hagain : ∀ before settings, before ++ [.reopen settings] <+: turns →
      (FileTree.makeParent s.path t).state.IsNamed settings place ∨
        (run ⟨t, none, []⟩ (.reopen s :: before)).closed.OpensAt settings place) :
    (next ⟨t, none, []⟩ (.reopen s)).answers turns =
        (next ⟨t, none, []⟩ (.reopen s)).answers (turns.filter Turn.isOperation) ∧
      ∀ given ∈ (next ⟨t, none, []⟩ (.reopen s)).answers turns, given.2.isSome := by
  obtain ⟨f, hworks⟩ := exists_worksAs hfirst
  have hanswers := hworks.answers_eq hfirst.mayHold hagain
  have hoperations : _ = fileAnswers f (turns.filter Turn.isOperation) :=
    hworks.answers_eq hfirst.mayHold fun before settings hprefix => by
      have hmem := hprefix.subset (List.mem_append_right before (List.mem_singleton_self _))
      exact nomatch (List.mem_filter.mp hmem).2
  rw [hanswers, hoperations, fileAnswers_filter]
  exact ⟨rfl, isSome_of_mem_fileAnswers⟩

/-- A new file is opened again by another path, in another mode of its journal and with fewer
readers, and by its first path once more. -/
theorem answers_of_reopenings_atStart :
    let id : InstanceId := ⟨1, by decide, by decide⟩
    let place := ["work", "ledger.db"]
    let other : StoreSettings := { path := "./ledger.db", journalMode := .delete, poolSize := 2 }
    let opened := next ⟨.start, none, []⟩ (.reopen { path := "ledger.db" })
    let turns : List Turn := [.operation (.call (.createInstance "load" "nightly" none)),
      .reopen other, .operation (.createJobStatus id), .reopen { path := "ledger.db" },
      .operation (.jobStatus id)]
    FileTree.start.OpensAt { path := "ledger.db" } place ∧ FileTree.start.IsNamed other place ∧
      FileTree.start.IsNamed { path := "ledger.db" } place ∧
      opened.answers turns = opened.answers (turns.filter Turn.isOperation) ∧
      (∀ given ∈ opened.answers turns, given.2.isSome) ∧ (opened.answers turns).length = 3 := by
  intro id place other opened turns
  have hfirst : FileTree.start.OpensAt { path := "ledger.db" } place := {
    answer := ⟨_, OpenLedger.openedAt_atStart.answer⟩
    clear := OpenLedger.openedAt_atStart.clear
    idle := fun f hentry => nomatch OpenLedger.openedAt_atStart.free.symm.trans hentry }
  have hmade : FileTree.makeParent other.path .start = ⟨.ok (), .start, []⟩ := by
    have hparent : Files.parent? other.path = some "." := by decide +kernel
    rw [FileTree.makeParent, hparent]
    rfl
  have hother : FileTree.start.IsNamed other place :=
    ⟨by decide, by decide, by decide +kernel, by decide, hmade, by decide +kernel⟩
  have hsame : FileTree.start.IsNamed { path := "ledger.db" } place :=
    ⟨by decide, by decide, by decide +kernel, by decide, by rfl, by decide +kernel⟩
  obtain ⟨hanswers, hsome⟩ : opened.answers turns = _ ∧ _ :=
    answers_of_reopenings hfirst fun before settings hprefix => by
      have hmem := hprefix.subset (List.mem_append_right before (List.mem_singleton_self _))
      simp only [turns, List.mem_cons, reduceCtorEq, Turn.reopen.injEq, List.not_mem_nil,
        false_or, or_false] at hmem
      obtain rfl | rfl := hmem
      · exact .inl hother
      · exact .inl hsame
  exact ⟨hfirst, hother, hsame, hanswers, hsome, rfl⟩

end Desk

end JobLedger
