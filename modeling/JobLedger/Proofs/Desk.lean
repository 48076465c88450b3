import JobLedger.Proofs.Files.Reopening
import JobLedger.Proofs.Logging

/-!
# A store that is closed and opened again

A desk has a store open on a tree of files, or none. Its turns are operations on the store and
openings of it, under settings that may change, for which it is closed first. The calls that succeed
are logged over all sessions.
-/

namespace JobLedger

open JobLedger.Action

/-- The files, the session on one of them while the store is open, and the calls that succeeded. -/
structure Desk where
  files : FileTree
  session : Option Session
  log : CallLog

/-- What is done at a desk. -/
inductive Desk.Turn where
  | operation (operation : Operation)
  /-- The store is closed if it is open, and is opened under settings. -/
  | reopen (settings : StoreSettings)

namespace Desk

/-- The files when no session is open any more. -/
def closed (d : Desk) : FileTree :=
  match d.session with
  | some session => d.files.detach session
  | none => d.files

/-- The desk after the store was opened, or could not be. -/
def reopened (settings : StoreSettings) (d : Desk) : Desk :=
  let outcome := FileTree.openStore settings d.closed
  match outcome.answer with
  | .ok session => ⟨outcome.state.attach session, some session, d.log⟩
  | .error _ => ⟨outcome.state, none, d.log⟩

/-- The store was opened. -/
theorem reopened_ok {settings : StoreSettings} {d : Desk} {session : Session}
    (h : (FileTree.openStore settings d.closed).answer = .ok session) :
    d.reopened settings =
      ⟨(FileTree.openStore settings d.closed).state.attach session, some session, d.log⟩ := by
  simp only [reopened, h]

/-- The store could not be opened. -/
theorem reopened_error {settings : StoreSettings} {d : Desk} {e : StoreError}
    (h : (FileTree.openStore settings d.closed).answer = .error e) :
    d.reopened settings = ⟨(FileTree.openStore settings d.closed).state, none, d.log⟩ := by
  simp only [reopened, h]

/-- The desk after an operation on its store. There is none on a store that is not open. -/
def performed (operation : Operation) (d : Desk) : Desk :=
  match d.session with
  | some session =>
    let next := operation.next (⟨⟨d.files, session⟩, d.log⟩ : Logged OpenLedger)
    ⟨next.store.files, some next.store.session, next.log⟩
  | none => d

/-- The desk after a turn. -/
def next (d : Desk) : Turn → Desk
  | .operation operation => d.performed operation
  | .reopen settings => d.reopened settings

/-- The desk after turns one after the other. -/
def run (d : Desk) (turns : List Turn) : Desk := turns.foldl next d

/-- The store of a desk, while it is open. -/
def store? (d : Desk) : Option OpenLedger := d.session.map fun session => ⟨d.files, session⟩

/-- A desk has a ledger in the file at a place: its session has that to itself, or the ledger rests. -/
def Has (first : FileTree) (place : Place) (d : Desk) (m : Memory) : Prop :=
  match d.session with
  | some session => OpenLedger.HoldsAt first place ⟨d.files, session⟩ m
  | none => FileTree.RestsAt first place (· = m.database) d.files

/-- A desk has a well-formed ledger with a property that is about its log as well. -/
def Bears (first : FileTree) (place : Place) (A : Memory → CallLog → Prop) (d : Desk) : Prop :=
  ∃ m, d.Has first place m ∧ m.WellFormed ∧ m.Storable ∧ A m d.log

variable {first : FileTree} {place : Place} {d : Desk}

/-- A ledger rests when it is closed. -/
theorem Has.restsAt_closed {m : Memory} (h : d.Has first place m) :
    FileTree.RestsAt first place (· = m.database) d.closed := by
  obtain ⟨files, session, log⟩ := d
  cases session with
  | none => exact h
  | some session => exact OpenLedger.HoldsAt.restsAt_detach (l := ⟨files, session⟩) h

/-- An operation does to the ledger what holds on for calls that succeed. -/
theorem Bears.performed {A : Memory → CallLog → Prop} (hA : CallLog.Extends A)
    (h : d.Bears first place A) (operation : Operation) :
    (d.performed operation).Bears first place A := by
  obtain ⟨files, session, log⟩ := d
  cases session with
  | none => exact h
  | some session =>
    obtain ⟨m, hheld, hformed, hstorable, hlog⟩ := h
    have hcarries := carriesLedger_of_serves (OpenLedger.serves_holdsAt first place)
    have hkeeps : Keeps (BearsLogged _ A) operation.perform := Operation.keeps_perform fun call _ =>
      keeps_bearsLogged hcarries hA call
    obtain ⟨after, ⟨hafter, hwell, hfits⟩, hlogged⟩ :=
      hkeeps ⟨⟨files, session⟩, log⟩ ⟨m, ⟨hheld, hformed, hstorable⟩, hlog⟩
    exact ⟨after, hafter, hwell, hfits, hlogged⟩

section Reopened

variable {t : FileTree} {s settings : StoreSettings} {l : OpenLedger}
  (hl : l.OpenedAt t s place) (hpath : settings.path = s.path) {A : Memory → CallLog → Prop}

include hl hpath

/-- Opening the store again makes no difference to the ledger. -/
theorem Bears.reopened (h : d.Bears (FileTree.makeParent s.path t).state place A) :
    (d.reopened settings).Bears (FileTree.makeParent s.path t).state place A := by
  obtain ⟨m, hheld, hformed, hstorable, hlog⟩ := h
  obtain ⟨hrests, hsession⟩ := hl.reopen hpath hheld.restsAt_closed
  cases hanswer : (FileTree.openStore settings d.closed).answer with
  | ok session =>
    rw [reopened_ok hanswer, hsession session hanswer]
    exact ⟨m, OpenLedger.holdsAt_attach hrests _, hformed, hstorable, hlog⟩
  | error e =>
    rw [reopened_error hanswer]
    exact ⟨m, hrests, hformed, hstorable, hlog⟩

end Reopened

/-- The desk at which the store was opened where there was no ledger. -/
theorem bears_first {t : FileTree} {s : StoreSettings} {l : OpenLedger} (hl : l.OpenedAt t s place)
    {A : Memory → CallLog → Prop} (hempty : A Memory.empty []) :
    (next ⟨t, none, []⟩ (.reopen s)).Bears (FileTree.makeParent s.path t).state place A := by
  obtain ⟨readers, hsession⟩ := hl.session
  have hfirst := reopened_ok (d := ⟨t, none, []⟩) hl.answer
  change ((⟨t, none, []⟩ : Desk).reopened s).Bears _ _ _
  rw [hfirst, hsession]
  have hfiles : (FileTree.openStore s (closed ⟨t, none, []⟩)).state = l.files := hl.files
  rw [hfiles]
  exact ⟨Memory.empty, OpenLedger.holdsAt_attach hl.restsAt readers, Memory.wellFormed_empty,
    Memory.storable_empty, hempty⟩

/-- What holds of the empty ledger and holds on for calls that succeed holds at a desk, however often
the store is opened again by the same path. -/
theorem bears_run {t : FileTree} {s : StoreSettings} {l : OpenLedger} (hl : l.OpenedAt t s place)
    {A : Memory → CallLog → Prop} (hA : CallLog.Extends A) (hempty : A Memory.empty [])
    {turns : List Turn} (hpath : ∀ settings, .reopen settings ∈ turns → settings.path = s.path) :
    (run ⟨t, none, []⟩ (.reopen s :: turns)).Bears (FileTree.makeParent s.path t).state place A := by
  have hrun (d : Desk) (hd : d.Bears (FileTree.makeParent s.path t).state place A) :
      (run d turns).Bears (FileTree.makeParent s.path t).state place A := by
    induction turns generalizing d with
    | nil => exact hd
    | cons turn rest ih =>
      refine ih (fun settings hmem => hpath settings (List.mem_cons_of_mem _ hmem)) _ ?_
      cases turn with
      | operation operation => exact hd.performed hA operation
      | reopen settings => exact Bears.reopened hl (hpath settings List.mem_cons_self) hd
  exact hrun _ (bears_first hl hempty)

/-- A store that is open carries a ledger, however often it was opened again by the same path. -/
theorem exists_carries {t : FileTree} {s : StoreSettings} {l : OpenLedger} (hl : l.OpenedAt t s place)
    {turns : List Turn} (hpath : ∀ settings, .reopen settings ∈ turns → settings.path = s.path)
    {opened : OpenLedger} (hopen : (run ⟨t, none, []⟩ (.reopen s :: turns)).store? = some opened) :
    ∃ m, opened.Carries m := by
  obtain ⟨m, hheld, hformed, hstorable, -⟩ :=
    bears_run (A := fun _ _ => True) hl (fun _ _ _ => trivial) trivial hpath
  obtain ⟨session, hsession, rfl⟩ := Option.map_eq_some_iff.mp hopen
  rw [Has, hsession] at hheld
  exact ⟨m, hheld.holds, hformed, hstorable⟩

end Desk

end JobLedger
