import Mathlib.Order.Defs.Unbundled
import JobLedger.Entries
import JobLedger.Id
import JobLedger.Proofs.Keyed

/-!
# Entries arranged by their keys

The rows of a table may stand in the order in which they came, each with its key, or they may be
arranged by the keys. What is looked up, added, changed and taken away in the one order is looked up,
added, changed and taken away in the other.
-/

namespace JobLedger

/-- Of two identifiers of one kind, one comes before the other. -/
instance {entity : Entity} : IsStrictTotalOrder (Id entity) (· < ·) where
  trichotomous _ _ hab hba := Id.ext (Nat.le_antisymm (Nat.le_of_not_lt hba) (Nat.le_of_not_lt hab))
  irrefl a := Nat.lt_irrefl a.number
  trans _ _ _ := Nat.lt_trans

section

variable {κ ρ : Type} [LT κ]

/-- The entries are those of the table, and their keys increase. -/
structure Arranged (table entries : List (κ × ρ)) : Prop where
  perm : entries.Perm table
  increasing : entries.Pairwise fun a b => a.1 < b.1

variable {table entries : List (κ × ρ)} {k : κ}

namespace Arranged

/-- Rows that are changed stay in order. -/
theorem map (h : Arranged table entries) {g : κ × ρ → κ × ρ}
    (hg : ∀ entry, (g entry).1 = entry.1) : Arranged (table.map g) (entries.map g) where
  perm := h.perm.map g
  increasing := by
    rw [List.pairwise_map]
    exact h.increasing.imp fun hlt => by rwa [hg, hg]

/-- The rows that are left stay in order. -/
theorem filter (h : Arranged table entries) (p : κ × ρ → Bool) :
    Arranged (table.filter p) (entries.filter p) where
  perm := h.perm.filter p
  increasing := h.increasing.filter p

end Arranged

/-- Up to the order, a row under a free key is put at the end. -/
theorem Entries.insert_perm [DecidableLT κ] [DecidableEq κ]
    (hfree : ∀ entry ∈ entries, entry.1 ≠ k) (r : ρ) :
    (insert k r entries).Perm (entries ++ [(k, r)]) := by
  induction entries with
  | nil => exact .refl _
  | cons head rest ih =>
    have hne : k ≠ head.1 := (hfree head List.mem_cons_self).symm
    rw [insert, if_neg hne]
    split
    · exact (List.perm_append_singleton (k, r) (head :: rest)).symm
    · exact (ih fun entry hentry => hfree entry (List.mem_cons_of_mem _ hentry)).cons head

variable [IsStrictTotalOrder κ (· < ·)]

namespace Arranged

/-- No two entries have one key. -/
theorem distinct (h : Arranged table entries) : DistinctKeys Prod.fst entries := by
  refine h.increasing.imp fun {a b} hlt => ?_
  intro heq
  rw [heq] at hlt
  exact irrefl_of (· < ·) b.1 hlt

/-- Rows that came in the order of their keys stand as they came. -/
theorem eq_of_increasing (h : Arranged table entries)
    (htable : table.Pairwise fun a b => a.1 < b.1) : entries = table := by
  refine h.perm.eq_of_pairwise (fun a b _ _ hab hba => ?_) h.increasing htable
  exact absurd (trans_of (· < ·) hab hba) (irrefl_of (· < ·) _)

/-- A key finds among the entries what it finds in the table. -/
theorem lookup_eq [DecidableEq κ] (h : Arranged table entries) (k : κ) :
    entries.lookup k = table.lookup k := by
  refine Option.ext fun r => ?_
  rw [lookup_eq_some_iff h.distinct, lookup_eq_some_iff (h.distinct.perm h.perm)]
  exact h.perm.mem_iff

end Arranged

variable [DecidableLT κ] [DecidableEq κ]

/-- The keys increase with the new one among them. -/
theorem Entries.insert_increasing (h : entries.Pairwise fun a b => a.1 < b.1) (k : κ) (r : ρ) :
    (insert k r entries).Pairwise fun a b => a.1 < b.1 := by
  induction entries with
  | nil => exact List.pairwise_singleton _ _
  | cons head rest ih =>
    obtain ⟨hhead, hrest⟩ := List.pairwise_cons.mp h
    rw [insert]
    split
    · next hbefore =>
      refine List.pairwise_cons.mpr ⟨fun entry hentry => ?_, h⟩
      rcases List.mem_cons.mp hentry with rfl | hentry
      · exact hbefore
      · exact trans_of (· < ·) hbefore (hhead entry hentry)
    · next hbefore =>
      split
      · next heq =>
        exact List.pairwise_cons.mpr ⟨fun entry hentry => heq ▸ hhead entry hentry, hrest⟩
      · next hne =>
        have hbehind : head.1 < k :=
          ((trichotomous_of (· < ·) k head.1).resolve_left hbefore).resolve_left hne
        refine List.pairwise_cons.mpr ⟨fun entry hentry => ?_, ih hrest⟩
        rcases mem_insert hentry with rfl | hentry
        · exact hbehind
        · exact hhead entry hentry

/-- A row that is new in the table is put in order. -/
theorem Arranged.insert (h : Arranged table entries) (hfree : table.lookup k = none) (r : ρ) :
    Arranged (table ++ [(k, r)]) (Entries.insert k r entries) where
  perm := by
    refine (Entries.insert_perm (fun entry hentry hkey => ?_) r).trans (h.perm.append_right _)
    have hrow : table.lookup k = some entry.2 :=
      (lookup_eq_some_iff (h.distinct.perm h.perm)).mpr (hkey ▸ h.perm.mem_iff.mp hentry)
    rw [hfree] at hrow
    exact nomatch hrow
  increasing := Entries.insert_increasing h.increasing k r

end

/-! ## Rows that hold their keys -/

section

variable {κ ρ : Type} {key : ρ → κ} {rows : List ρ} {k : κ}

/-- Rows, each with the key that it holds. -/
def keyed (key : ρ → κ) (rows : List ρ) : List (κ × ρ) := rows.map fun r => (key r, r)

/-- Rows without their keys are the rows. -/
theorem map_snd_keyed (key : ρ → κ) (rows : List ρ) : (keyed key rows).map Prod.snd = rows := by
  rw [keyed, List.map_map]
  exact List.map_id rows

/-- Rows that are taken away by their keys are taken away by the keys that they hold. -/
theorem keyed_filter (key : ρ → κ) (rows : List ρ) (goes : κ → Bool) :
    keyed key (rows.filter fun r => !goes (key r)) =
      (keyed key rows).filter fun entry => !goes entry.1 := by
  rw [keyed, keyed, List.filter_map]
  rfl

variable [DecidableEq κ]

/-- A key is looked up with the row that holds it. -/
theorem lookup_keyed (k : κ) : (keyed key rows).lookup k = rows.find? fun r => key r = k := by
  rw [lookup_eq_map_find?, keyed, List.find?_map, Option.map_map]
  exact Option.map_id'

/-- A row that keeps its key is changed with its key or without. -/
theorem keyed_changeRow {f : ρ → ρ} (hf : ∀ r, key r = k → key (f r) = k) :
    keyed key (changeRow key k f rows) =
      (keyed key rows).map fun entry => if entry.1 = k then (entry.1, f entry.2) else entry := by
  rw [keyed, keyed, changeRow, List.map_map, List.map_map]
  refine List.map_congr_left fun r _ => ?_
  by_cases hr : key r = k
  · simp [hr, hf r hr]
  · simp [hr]

namespace Arranged

variable [LT κ] {entries : List (κ × ρ)}

omit [DecidableEq κ] in
/-- A row stands under the key that it holds. -/
theorem key_eq (h : Arranged (keyed key rows) entries) {entry : κ × ρ} (hentry : entry ∈ entries) :
    key entry.2 = entry.1 := by
  obtain ⟨r, -, rfl⟩ := List.mem_map.mp (h.perm.mem_iff.mp hentry)
  rfl

omit [DecidableEq κ] in
/-- There is an entry for every row. -/
theorem length_rows (h : Arranged (keyed key rows) entries) :
    (entries.map Prod.snd).length = rows.length := by
  rw [List.length_map, h.perm.length_eq, keyed, List.length_map]

omit [DecidableEq κ] in
/-- Rows are taken away with their keys. -/
theorem withdraw (h : Arranged (keyed key rows) entries) (goes : κ → Bool) :
    Arranged (keyed key (rows.filter fun r => !goes (key r)))
      (entries.filter fun entry => !goes entry.1) := by
  rw [keyed_filter]
  exact h.filter _

/-- A row that keeps its key is changed under it. -/
theorem changeRow (h : Arranged (keyed key rows) entries) {f : ρ → ρ}
    (hf : ∀ r, key r = k → key (f r) = k) :
    Arranged (keyed key (changeRow key k f rows))
      (entries.map fun entry => if entry.1 = k then (entry.1, f entry.2) else entry) := by
  rw [keyed_changeRow hf]
  exact h.map fun entry => by split <;> rfl

variable [IsStrictTotalOrder κ (· < ·)]

/-- A row is found under the key that it holds. -/
theorem lookup_eq_find? (h : Arranged (keyed key rows) entries) (k : κ) :
    entries.lookup k = rows.find? fun r => key r = k :=
  (h.lookup_eq k).trans (lookup_keyed k)

/-- A row is added under the key that it holds, which is free. -/
theorem append [DecidableLT κ] (h : Arranged (keyed key rows) entries) {r : ρ} (hr : key r = k)
    (hfree : (rows.find? fun r => key r = k) = none) :
    Arranged (keyed key (rows ++ [r])) (Entries.insert k r entries) := by
  have happend : keyed key (rows ++ [r]) = keyed key rows ++ [(k, r)] := by
    rw [keyed, keyed, List.map_append, List.map_singleton, hr]
  rw [happend]
  exact h.insert ((lookup_keyed k).trans hfree) r

end Arranged

end

end JobLedger
