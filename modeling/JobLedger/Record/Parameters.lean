import JobLedger.Entries

/-!
# Job parameters

The parameters of a run are a finite map from names to values, kept in the order of the names. Two
sets of parameters with the same entries are equal.
-/

namespace JobLedger

/-- The parameters given to a run, in the order of their names, each name once. -/
structure JobParameters where
  /-- Names with their values. -/
  entries : List (String × String)
  /-- Names stand in strictly increasing order. -/
  sorted : entries.Pairwise fun a b => a.1 < b.1 := by simp
  deriving DecidableEq

namespace JobParameters

/-- No parameters. -/
def empty : JobParameters := { entries := [] }

instance : Inhabited JobParameters := ⟨empty⟩

/-- Entries stay in the order of names when a name is bound. -/
theorem sorted_insert {name value : String} {entries : List (String × String)}
    (h : entries.Pairwise fun a b => a.1 < b.1) :
    (Entries.insert name value entries).Pairwise fun a b => a.1 < b.1 := by
  induction entries with
  | nil => simp [Entries.insert]
  | cons head rest ih =>
    obtain ⟨n, v⟩ := head
    have hrest := List.pairwise_cons.1 h
    unfold Entries.insert
    split
    · rename_i hlt
      refine List.pairwise_cons.2 ⟨fun entry hmem => ?_, h⟩
      rcases List.mem_cons.1 hmem with rfl | hmem
      · exact hlt
      · exact String.lt_trans hlt (hrest.1 _ hmem)
    · rename_i hnlt
      split
      · rename_i heq
        subst heq
        exact List.pairwise_cons.2 ⟨fun entry hmem => hrest.1 _ hmem, hrest.2⟩
      · rename_i hne
        refine List.pairwise_cons.2 ⟨fun entry hmem => ?_, ih hrest.2⟩
        rcases Entries.mem_insert hmem with rfl | hmem
        · exact Std.lt_of_le_of_ne (Std.not_lt.1 hnlt) (Ne.symm hne)
        · exact hrest.1 _ hmem

/-- The parameters with `name` bound to `value`. -/
def insert (p : JobParameters) (name value : String) : JobParameters :=
  ⟨Entries.insert name value p.entries, sorted_insert p.sorted⟩

/-- The value bound to a name. -/
def get? (p : JobParameters) (name : String) : Option String := p.entries.lookup name

/-- The parameters bound one after the other; of two with one name the later stays. -/
def ofList (entries : List (String × String)) : JobParameters :=
  entries.foldl (fun p entry => p.insert entry.1 entry.2) empty

/-- Parameters are determined by their entries. -/
@[ext]
theorem ext {p q : JobParameters} (h : p.entries = q.entries) : p = q := by
  cases p; cases q; simp_all

/-- Parameters are bound again, one after the other, from their entries. -/
theorem ofList_entries (p : JobParameters) : ofList p.entries = p := by
  have hentries (q : JobParameters) (rest : List (String × String)) :
      (rest.foldl (fun p entry => p.insert entry.1 entry.2) q).entries =
        rest.foldl (fun found entry => Entries.insert entry.1 entry.2 found) q.entries := by
    induction rest generalizing q with
    | nil => rfl
    | cons entry rest ih => exact ih _
  have hasymm (a b : String) (h : a < b) : ¬ b < a := Std.not_lt.2 (Std.le_of_lt h)
  refine ext ?_
  rw [ofList, hentries, Entries.foldl_insert hasymm Prod.fst Prod.snd]
  · simp [empty]
  · simpa [empty] using p.sorted

end JobParameters

end JobLedger
