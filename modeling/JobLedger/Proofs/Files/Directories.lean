import JobLedger.Proofs.Files.Opening

/-!
# Directories stay

A session puts files only where there is no directory, and takes none away. Once the directories on
the way to a database have been made, they need not be made again.
-/

namespace JobLedger

namespace FileTree

/-- The directories of one tree are directories of another one. -/
def KeepsDirectories (t u : FileTree) : Prop :=
  ∀ place, t.isDirectoryAt place = true → u.isDirectoryAt place = true

variable {t u v : FileTree} {place : Place}

namespace KeepsDirectories

theorem refl (t : FileTree) : t.KeepsDirectories t := fun _ h => h

theorem trans (h : t.KeepsDirectories u) (h' : u.KeepsDirectories v) : t.KeepsDirectories v :=
  fun place hplace => h' place (h place hplace)

/-- Whatever is put where there is no directory leaves the directories. -/
theorem put (hplace : t.isDirectoryAt place = false) (entry : FileEntry) :
    t.KeepsDirectories (t.put place entry) := by
  intro there hthere
  have hne : there ≠ place := fun heq => by rw [heq, hplace] at hthere; exact nomatch hthere
  rwa [isDirectoryAt, find?_put, if_neg hne]

/-- A directory is added to those that are there. -/
theorem putDirectory : t.KeepsDirectories (t.put place .directory) := by
  intro there hthere
  rw [isDirectoryAt, find?_put]
  split
  · exact decide_eq_true rfl
  · exact hthere

/-- Whatever is erased that is no directory leaves the directories. -/
theorem erase (hplace : t.isDirectoryAt place = false) : t.KeepsDirectories (t.erase place) := by
  intro there hthere
  have hne : there ≠ place := fun heq => by rw [heq, hplace] at hthere; exact nomatch hthere
  rwa [isDirectoryAt, find?_erase, if_neg hne]

/-- A file beside a database takes the place of no directory. -/
theorem putSide (side : SideFile) (content : Text.Octets) :
    t.KeepsDirectories (t.putSide place side content) := by
  rw [FileTree.putSide]
  split
  · exact refl t
  · next hfree => exact put ((Bool.not_eq_true _).mp hfree) _

/-- A file beside a database is erased, and no directory. -/
theorem eraseSide (side : SideFile) : t.KeepsDirectories (t.eraseSide place side) := by
  rw [FileTree.eraseSide]
  split
  · exact refl t
  · next hfree => exact erase ((Bool.not_eq_true _).mp hfree)

end KeepsDirectories

/-- There is no directory where a ledger is. -/
theorem Guarded.not_directory {f : LedgerFile} (h : t.Guarded place f) :
    t.isDirectoryAt place = false := by
  rw [isDirectoryAt, h.entry]
  rfl

namespace KeepsDirectories

variable {f : LedgerFile} (h : t.Guarded place f)

include h

/-- A ledger is written where there is no directory. -/
theorem changeLedger (next : LedgerFile) :
    t.KeepsDirectories (t.changeLedger (.file place) next) := by
  have hput := put h.not_directory (.ledger next)
  rw [FileTree.changeLedger]
  dsimp only [putLedger]
  split
  · exact hput
  · exact hput.trans (eraseSide .journal)

/-- The log is put beside a database, and no directory goes. -/
theorem keepLog : t.KeepsDirectories (t.keepLog place) := by
  rw [FileTree.keepLog]
  dsimp only
  split
  · split
    · exact putSide .log _
    · exact refl t
  · exact ((put h.not_directory _).trans (putSide .log _)).trans (putSide .index _)

/-- The log is closed, and no directory goes. -/
theorem closeLog : t.KeepsDirectories (t.closeLog place) :=
  ((put h.not_directory _).trans (eraseSide .log)).trans (eraseSide .index)

/-- A session that joins a ledger leaves the directories. -/
theorem attach (mayWrite : Bool) (readers : List Bool) :
    t.KeepsDirectories (t.attach (.ledger (.file place) mayWrite readers)) := by
  rw [FileTree.attach]
  split
  · exact keepLog h
  · exact refl t

end KeepsDirectories

/-! ## Directories that are made -/

/-- Directories that are made along a path are added to those that are there. -/
theorem keepsDirectories_makeAlong (t : FileTree) (here : Place) (names : List String) :
    t.KeepsDirectories (t.makeAlong here names).2 := by
  fun_induction makeAlong t here names with
  | case1 | case4 | case6 => exact .refl _
  | case2 | case3 | case5 => assumption
  | case7 t here name rest hidle hup hshort hnone ih => exact .trans .putDirectory ih

/-- What was made once is there, and is not made again. -/
theorem makeAlong_of_keepsDirectories {here : Place} {names : List String}
    (hmade : (t.makeAlong here names).1 = true)
    (hkeeps : (t.makeAlong here names).2.KeepsDirectories u) :
    u.makeAlong here names = (true, u) := by
  fun_induction makeAlong t here names with
  | case1 => rfl
  | case2 t here name rest hidle ih =>
    rw [makeAlong, if_pos hidle]
    exact ih hmade hkeeps
  | case3 t here rest hidle ih =>
    rw [makeAlong, if_neg hidle, if_pos rfl]
    exact ih hmade hkeeps
  | case4 | case6 => exact nomatch hmade
  | case5 t here name rest hidle hup hshort hthere ih =>
    have hdirectory : u.find? (here ++ [name]) = some .directory :=
      of_decide_eq_true (hkeeps _ (keepsDirectories_makeAlong t _ rest _ (decide_eq_true hthere)))
    rw [makeAlong, if_neg hidle, if_neg hup, if_neg hshort, hdirectory]
    exact ih hmade hkeeps
  | case7 t here name rest hidle hup hshort hnone ih =>
    have hput : (t.put (here ++ [name]) .directory).isDirectoryAt (here ++ [name]) = true := by
      rw [isDirectoryAt, find?_put, if_pos rfl]
      exact decide_eq_true rfl
    have hdirectory : u.find? (here ++ [name]) = some .directory :=
      of_decide_eq_true (hkeeps _ (keepsDirectories_makeAlong _ _ rest _ hput))
    rw [makeAlong, if_neg hidle, if_neg hup, if_neg hshort, hdirectory]
    exact ih hmade hkeeps

/-- A directory that was made once is found as long as it stays. -/
theorem makeDirectory_of_keepsDirectories {path : String}
    (hmade : (t.makeDirectory path).1 = true)
    (hkeeps : (t.makeDirectory path).2.KeepsDirectories u) : u.makeDirectory path = (true, u) := by
  rw [makeDirectory] at hmade hkeeps ⊢
  split
  · rfl
  · next hpath =>
    rw [if_neg hpath] at hmade hkeeps
    split
    · next hunusable =>
      rw [if_pos hunusable] at hmade
      exact nomatch hmade
    · next husable =>
      rw [if_neg husable] at hmade hkeeps
      exact makeAlong_of_keepsDirectories hmade hkeeps

/-- A text that is given and is not empty is used. -/
theorem match_nonempty {β : Type} (text : Option String) (b : β) (f : String → β) :
    (match text with | none => b | some "" => b | some text => f text) = b ∨
      ∃ text' : String, (match text with | none => b | some "" => b | some text => f text) =
        f text' := by
  split
  · exact .inl rfl
  · exact .inl rfl
  · exact .inr ⟨_, rfl⟩

/-- Either there is no directory on the way to a database, or the one is made. -/
theorem makeParent_cases (path : String) :
    (∀ t, makeParent path t = ⟨.ok (), t, []⟩) ∨ ∃ parent, ∀ t, makeParent path t =
      ⟨if (t.makeDirectory parent).1 then .ok () else .error ⟨.io, .unreachable parent⟩,
        (t.makeDirectory parent).2, []⟩ := by
  rcases match_nonempty (Files.parent? path) (Action.answer () : Action StoreError FileTree Unit)
    (fun parent t =>
      ⟨if (t.makeDirectory parent).1 then .ok () else .error ⟨.io, .unreachable parent⟩,
        (t.makeDirectory parent).2, []⟩) with hnone | ⟨parent, hparent⟩
  · exact .inl fun t => congrFun hnone t
  · exact .inr ⟨parent, fun t => congrFun hparent t⟩

/-- The directories on the way to a database are not made again. -/
theorem makeParent_of_keepsDirectories {path : String}
    (hmade : (makeParent path t).answer = .ok ())
    (hkeeps : (makeParent path t).state.KeepsDirectories u) :
    makeParent path u = ⟨.ok (), u, []⟩ := by
  rcases makeParent_cases path with hnone | ⟨parent, hparent⟩
  · exact hnone u
  · rw [hparent] at hmade hkeeps ⊢
    have hdone : (t.makeDirectory parent).1 = true := by
      cases hfirst : (t.makeDirectory parent).1 with
      | true => rfl
      | false =>
        rw [hfirst] at hmade
        exact nomatch hmade
    rw [makeDirectory_of_keepsDirectories hdone hkeeps, if_pos rfl]

end FileTree

end JobLedger
