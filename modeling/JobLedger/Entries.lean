/-!
# Entries in the order of their keys

A finite map is a list of entries, each a key with what is bound to it, in increasing order of the
keys. A key that is bound once more loses what was bound to it before.
-/

namespace JobLedger.Entries

variable {κ ρ : Type} [LT κ] [DecidableLT κ] [DecidableEq κ]

/-- The entries with a key bound to a row, in the order of keys. -/
def insert (key : κ) (row : ρ) : List (κ × ρ) → List (κ × ρ)
  | [] => [(key, row)]
  | (k, r) :: rest =>
    if key < k then (key, row) :: (k, r) :: rest
    else if key = k then (key, row) :: rest
    else (k, r) :: insert key row rest

/-- An entry is the new one, or it was there before. -/
theorem mem_insert {key : κ} {row : ρ} {entries : List (κ × ρ)} {entry : κ × ρ}
    (h : entry ∈ insert key row entries) : entry = (key, row) ∨ entry ∈ entries := by
  induction entries with
  | nil => simpa [insert] using h
  | cons head rest ih =>
    obtain ⟨k, r⟩ := head
    unfold insert at h
    split at h
    · simpa using h
    · split at h
      · rcases List.mem_cons.1 h with h | h
        · exact .inl h
        · exact .inr (List.mem_cons_of_mem _ h)
      · rcases List.mem_cons.1 h with h | h
        · exact .inr (h ▸ List.mem_cons_self)
        · exact (ih h).imp_right (List.mem_cons_of_mem _)

/-- The key is bound to the new row, and the other keys are bound to what they were. -/
theorem lookup_insert (key k : κ) (row : ρ) (entries : List (κ × ρ)) :
    (insert key row entries).lookup k = if k = key then some row else entries.lookup k := by
  induction entries with
  | nil =>
    by_cases h : k = key
    · simp [insert, h]
    · have hne : (k == key) = false := by simpa using h
      simp [insert, List.lookup_cons, hne, h]
  | cons head rest ih =>
    obtain ⟨n, r⟩ := head
    unfold insert
    by_cases h : k = key
    · subst h
      split
      · simp
      · split
        · simp
        · rename_i hne
          have hne : (k == n) = false := by simpa using hne
          simpa [List.lookup_cons, hne] using ih
    · have hne : (k == key) = false := by simpa using h
      split
      · simp [List.lookup_cons, hne]
      · split
        · rename_i heq
          subst heq
          simp [List.lookup_cons, hne]
        · simp [List.lookup_cons, ih, h]

/-- A key behind all others is bound at the end. -/
theorem insert_eq_append (hasymm : ∀ a b : κ, a < b → ¬ b < a) {key : κ} {row : ρ}
    {entries : List (κ × ρ)} (h : ∀ entry ∈ entries, entry.1 < key) :
    insert key row entries = entries ++ [(key, row)] := by
  induction entries with
  | nil => rfl
  | cons head rest ih =>
    obtain ⟨k, r⟩ := head
    have hk : k < key := h _ List.mem_cons_self
    have hne : key ≠ k := by
      rintro rfl
      exact hasymm _ _ hk hk
    simp [insert, hasymm _ _ hk, hne, ih fun entry he => h entry (List.mem_cons_of_mem _ he)]

/-- Entries whose keys increase stay as they are when they are bound one after the other. -/
theorem foldl_insert {α : Type} (hasymm : ∀ a b : κ, a < b → ¬ b < a) (key : α → κ) (row : α → ρ)
    (entries : List (κ × ρ)) (rest : List α)
    (h : (entries ++ rest.map fun a => (key a, row a)).Pairwise fun a b => a.1 < b.1) :
    rest.foldl (fun found a => insert (key a) (row a) found) entries =
      entries ++ rest.map fun a => (key a, row a) := by
  induction rest generalizing entries with
  | nil => simp
  | cons a rest ih =>
    have hlast : insert (key a) (row a) entries = entries ++ [(key a, row a)] :=
      insert_eq_append hasymm fun e he =>
        (List.pairwise_append.1 h).2.2 e he (key a, row a) (by simp)
    rw [List.foldl_cons, hlast, ih _ (by simpa using h)]
    simp

end JobLedger.Entries
