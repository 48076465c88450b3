import JobLedger.Durable.Table
import JobLedger.Id
import JobLedger.Proofs.Keyed

/-!
# Records as rows

Records with identifiers are stored as rows under the numbers of their identifiers. What is looked
up, added, changed and removed among the records is looked up, added, changed and removed among the
rows. Where the records stand in an order of their own, the rows are sorted by their numbers, and
since no two have one number there is only one way to do that.
-/

namespace JobLedger

variable {α ρ : Type} {entity : Entity} (key : α → Id entity) (row : α → ρ)

/-- The row of a record, with its number. -/
def numberedRow (a : α) : Int × ρ := ((key a).number, row a)

/-- The rows of records, in the order of the records. -/
def rowsOf (records : List α) : List (Int × ρ) := records.map (numberedRow key row)

variable {key row} {records : List α}

/-- Identifiers with the same number are the same. -/
theorem number_inj {a b : Id entity} : (a.number : Int) = b.number ↔ a = b := by
  constructor
  · intro h
    exact Id.ext (by omega)
  · rintro rfl
    rfl

/-- The row of an identifier is that of the record that has it. -/
theorem lookup_rowsOf (id : Id entity) :
    (rowsOf key row records).lookup (id.number : Int) =
      (records.find? fun a => key a = id).map row := by
  induction records with
  | nil => rfl
  | cons a rest ih =>
    have hcons : rowsOf key row (a :: rest) = numberedRow key row a :: rowsOf key row rest := rfl
    rw [hcons, numberedRow, List.lookup_cons, ih]
    by_cases hid : key a = id
    · subst hid
      simp
    · have hne : ((id.number : Int) == (key a).number) = false := by
        rw [beq_eq_false_iff_ne, Ne, number_inj]
        exact Ne.symm hid
      rw [hne, List.find?_cons_of_neg (by simpa using hid)]

/-- Changing the row of an identifier changes the record that has it. -/
theorem modify_rowsOf {id : Id entity} {f : ρ → ρ} {g : α → α}
    (hkey : ∀ a, key a = id → key (g a) = key a) (hrow : ∀ a, key a = id → row (g a) = f (row a)) :
    ((rowsOf key row records).map fun entry =>
      if entry.1 = (id.number : Int) then (entry.1, f entry.2) else entry) =
        rowsOf key row (changeRow key id g records) := by
  rw [rowsOf, rowsOf, changeRow, List.map_map, List.map_map]
  refine List.map_congr_left fun a _ => ?_
  simp only [Function.comp_apply, numberedRow, number_inj]
  split
  · next hid => rw [hkey a hid, hrow a hid]
  · rfl

/-- The rows that stay are those of the records that stay. -/
theorem filter_rowsOf (stays : Int × ρ → Bool) :
    (rowsOf key row records).filter stays =
      rowsOf key row (records.filter fun a => stays (numberedRow key row a)) := by
  rw [rowsOf, List.filter_map]
  rfl

/-- Sorting rows sorts the records in them. -/
theorem mergeSort_rowsOf (le : Int × ρ → Int × ρ → Bool) :
    (rowsOf key row records).mergeSort le =
      rowsOf key row (records.mergeSort fun a b =>
        le (numberedRow key row a) (numberedRow key row b)) := by
  rw [rowsOf, rowsOf, List.map_mergeSort (s := le) fun _ _ _ _ => rfl]

/-- The rows of two lists stand one behind the other. -/
theorem rowsOf_append (first second : List α) :
    rowsOf key row (first ++ second) = rowsOf key row first ++ rowsOf key row second :=
  List.map_append

/-- The highest number of a table that never gave out more than its last one is that one. -/
theorem foldl_max_rowsOf {last : Nat} (hle : ∀ a ∈ records, (key a).number ≤ last) :
    (rowsOf key row records).foldl (fun top entry => max top entry.1) (last : Int) = last := by
  induction records with
  | nil => rfl
  | cons a rest ih =>
    have hcons : rowsOf key row (a :: rest) = numberedRow key row a :: rowsOf key row rest := rfl
    have ha := hle a List.mem_cons_self
    have hmax : max (last : Int) (key a).number = last := by omega
    rw [hcons, List.foldl_cons, numberedRow, hmax]
    exact ih fun b hb => hle b (List.mem_cons_of_mem _ hb)

/-- The number of the next row is the one behind the last, as long as there is room. -/
theorem nextRow?_rowsOf {last : Nat} (hle : ∀ a ∈ records, (key a).number ≤ last) :
    (Table.mk (rowsOf key row records) last).nextRow? =
      if (last : Int) < Table.lastRow then some ((last : Int) + 1) else none := by
  simp only [Table.nextRow?, foldl_max_rowsOf hle]

/-! ## Sorted rows -/

/-- Rows in the order of their numbers. -/
def sortRows (rows : List (Int × ρ)) : List (Int × ρ) := rows.mergeSort fun a b => a.1 ≤ b.1

/-- Records with distinct identifiers have rows with distinct numbers. -/
theorem distinctKeys_rowsOf (h : DistinctKeys key records) :
    DistinctKeys Prod.fst (rowsOf key row records) := by
  rw [DistinctKeys, rowsOf, List.pairwise_map]
  refine h.imp fun hne heq => hne ?_
  exact number_inj.mp heq

/-- Sorting puts rows in another order. -/
theorem sortRows_perm (rows : List (Int × ρ)) : (sortRows rows).Perm rows :=
  List.mergeSort_perm rows _

/-- Sorted rows stand in the order of their numbers. -/
theorem sortRows_sorted (rows : List (Int × ρ)) :
    (sortRows rows).Pairwise fun a b => a.1 ≤ b.1 := by
  have hpairwise : (sortRows rows).Pairwise fun a b => decide (a.1 ≤ b.1) = true :=
    List.pairwise_mergeSort (by simp only [decide_eq_true_eq]; omega)
      (by simp only [Bool.or_eq_true, decide_eq_true_eq]; omega) rows
  exact hpairwise.imp fun hle => of_decide_eq_true hle

/-- There is one way only to put rows with different numbers in order. -/
theorem sortRows_eq_of_perm {rows sorted : List (Int × ρ)} (hdistinct : DistinctKeys Prod.fst rows)
    (hsorted : sorted.Pairwise fun a b => a.1 ≤ b.1) (hperm : sorted.Perm rows) :
    sortRows rows = sorted := by
  have hsame : (sortRows rows).Perm sorted := (sortRows_perm rows).trans hperm.symm
  refine hsame.eq_of_pairwise ?_ (sortRows_sorted rows) hsorted
  intro a b ha hb hab hba
  exact (hdistinct.perm hperm.symm).eq_of_key_eq (hsame.mem_iff.mp ha) hb (Int.le_antisymm hab hba)

/-- Sorted rows of records do not show in what order the records stood. -/
theorem sortRows_rowsOf_of_perm {others : List α} (h : DistinctKeys key records)
    (hperm : records.Perm others) :
    sortRows (rowsOf key row records) = sortRows (rowsOf key row others) :=
  sortRows_eq_of_perm (distinctKeys_rowsOf h) (sortRows_sorted _)
    ((sortRows_perm _).trans (hperm.symm.map _))

/-- In rows with distinct numbers the order does not matter for what is found. -/
theorem lookup_sortRows {rows : List (Int × ρ)} (h : DistinctKeys Prod.fst rows) (n : Int) :
    (sortRows rows).lookup n = rows.lookup n := by
  refine Option.ext fun r => ?_
  rw [lookup_eq_some_iff h, lookup_eq_some_iff (h.perm (sortRows_perm rows).symm)]
  exact (sortRows_perm rows).mem_iff

/-- The rows that stay stand in the same order whether they are sorted before or afterwards. -/
theorem filter_sortRows {rows : List (Int × ρ)} (h : DistinctKeys Prod.fst rows)
    (stays : Int × ρ → Bool) : (sortRows rows).filter stays = sortRows (rows.filter stays) :=
  (sortRows_eq_of_perm (h.filter stays) ((sortRows_sorted rows).filter stays)
    ((sortRows_perm rows).filter stays)).symm

/-- A change that leaves the numbers leaves the order. -/
theorem map_sortRows {rows : List (Int × ρ)} (h : DistinctKeys Prod.fst rows)
    {f : Int × ρ → Int × ρ} (hf : ∀ entry, (f entry).1 = entry.1) :
    (sortRows rows).map f = sortRows (rows.map f) := by
  refine (sortRows_eq_of_perm ?_ ?_ ((sortRows_perm rows).map f)).symm
  · rw [DistinctKeys, List.pairwise_map]
    exact h.imp fun hne => by rwa [hf, hf]
  · rw [List.pairwise_map]
    exact (sortRows_sorted rows).imp fun hle => by rwa [hf, hf]

/-- A placed row is there, beside those that were there. -/
theorem mem_place {n : Int} {r : ρ} {rows : List (Int × ρ)} {entry : Int × ρ} :
    entry ∈ Table.place n r rows ↔ entry = (n, r) ∨ entry ∈ rows := by
  induction rows with
  | nil => simp [Table.place]
  | cons first rest ih =>
    rw [Table.place]
    split
    · simp
    · rw [List.mem_cons, ih, List.mem_cons]
      exact or_left_comm

/-- Up to the order, a row is placed at the end. -/
theorem place_perm (n : Int) (r : ρ) (rows : List (Int × ρ)) :
    (Table.place n r rows).Perm (rows ++ [(n, r)]) := by
  induction rows with
  | nil => exact .refl _
  | cons first rest ih =>
    rw [Table.place]
    split
    · exact (List.perm_append_singleton (n, r) (first :: rest)).symm
    · exact ih.cons first

/-- A row is placed between those with smaller and those with greater numbers. -/
theorem place_sorted {n : Int} {r : ρ} {rows : List (Int × ρ)}
    (h : rows.Pairwise fun a b => a.1 ≤ b.1) :
    (Table.place n r rows).Pairwise fun a b => a.1 ≤ b.1 := by
  induction rows with
  | nil => exact List.pairwise_singleton _ _
  | cons first rest ih =>
    obtain ⟨hfirst, hrest⟩ := List.pairwise_cons.mp h
    rw [Table.place]
    split
    · next hlt =>
      refine List.pairwise_cons.mpr ⟨fun entry hentry => ?_, h⟩
      rcases List.mem_cons.mp hentry with rfl | hentry
      · exact Int.le_of_lt hlt
      · exact Int.le_trans (Int.le_of_lt hlt) (hfirst entry hentry)
    · next hnlt =>
      refine List.pairwise_cons.mpr ⟨fun entry hentry => ?_, ih hrest⟩
      rcases mem_place.mp hentry with rfl | hentry
      · exact Int.not_lt.mp hnlt
      · exact hfirst entry hentry

/-- A row put at its place among sorted rows is a row added before sorting. -/
theorem place_sortRows {rows : List (Int × ρ)} {n : Int} {r : ρ}
    (h : DistinctKeys Prod.fst (rows ++ [(n, r)])) :
    Table.place n r (sortRows rows) = sortRows (rows ++ [(n, r)]) :=
  (sortRows_eq_of_perm h (place_sorted (sortRows_sorted rows))
    ((place_perm n r _).trans ((sortRows_perm rows).append_right _))).symm

end JobLedger
