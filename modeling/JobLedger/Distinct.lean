/-!
# First entries

Of entries that share a key the first one stays, and the order is kept.
-/

namespace JobLedger

/-- The entries of a list that come first under their key. -/
def distinctBy {α κ : Type} [DecidableEq κ] (key : α → κ) : List α → List α
  | [] => []
  | a :: rest => a :: (distinctBy key rest).filter fun b => key b ≠ key a

/-- What is kept was there. -/
theorem mem_of_mem_distinctBy {α κ : Type} [DecidableEq κ] {key : α → κ} {entries : List α}
    {a : α} (h : a ∈ distinctBy key entries) : a ∈ entries := by
  induction entries with
  | nil => simp [distinctBy] at h
  | cons b rest ih =>
    rcases List.mem_cons.1 h with rfl | h
    · exact List.mem_cons_self
    · exact List.mem_cons_of_mem _ (ih (List.mem_filter.1 h).1)

/-- What is kept stays in order. -/
theorem distinctBy_sublist {α κ : Type} [DecidableEq κ] (key : α → κ) (entries : List α) :
    (distinctBy key entries).Sublist entries := by
  induction entries with
  | nil => exact .slnil
  | cons a rest ih => exact (List.filter_sublist.trans ih).cons_cons a

/-- No key is kept twice. -/
theorem pairwise_distinctBy {α κ : Type} [DecidableEq κ] (key : α → κ) (entries : List α) :
    (distinctBy key entries).Pairwise fun a b => key a ≠ key b := by
  induction entries with
  | nil => exact .nil
  | cons a rest ih =>
    refine List.pairwise_cons.2 ⟨fun b hb => ?_, ih.filter _⟩
    have hne := (List.mem_filter.1 hb).2
    exact Ne.symm (of_decide_eq_true hne)

/-- Every key is kept once. -/
theorem exists_mem_distinctBy {α κ : Type} [DecidableEq κ] {key : α → κ} {entries : List α}
    {a : α} (h : a ∈ entries) : ∃ b ∈ distinctBy key entries, key b = key a := by
  induction entries with
  | nil => simp at h
  | cons c rest ih =>
    by_cases hc : key c = key a
    · exact ⟨c, List.mem_cons_self, hc⟩
    · rcases List.mem_cons.1 h with rfl | h
      · exact absurd rfl hc
      · obtain ⟨b, hb, hk⟩ := ih h
        refine ⟨b, List.mem_cons_of_mem _ (List.mem_filter.2 ⟨hb, ?_⟩), hk⟩
        simpa [hk] using Ne.symm hc

/-- Where entries come with the greatest rank first, an entry stays if it is the greatest one under
its key. -/
theorem mem_distinctBy_iff {α κ : Type} [DecidableEq κ] {key : α → κ} {rank : α → Nat}
    {entries : List α} (h : entries.Pairwise fun a b => rank b < rank a) {a : α} :
    a ∈ distinctBy key entries ↔
      a ∈ entries ∧ ∀ b ∈ entries, key b = key a → rank b ≤ rank a := by
  induction entries with
  | nil => simp [distinctBy]
  | cons c rest ih =>
    obtain ⟨hfirst, hrest⟩ := List.pairwise_cons.1 h
    have hrest := ih hrest
    rw [distinctBy, List.mem_cons, List.mem_filter, decide_eq_true_iff]
    constructor
    · intro hmem
      rcases hmem with heq | ⟨hmem, hkey⟩
      · subst heq
        refine ⟨List.mem_cons_self, List.forall_mem_cons.2 ⟨fun _ => Nat.le_refl _, ?_⟩⟩
        exact fun b hb _ => Nat.le_of_lt (hfirst b hb)
      · obtain ⟨ha, hgreatest⟩ := hrest.1 hmem
        refine ⟨List.mem_cons_of_mem _ ha, List.forall_mem_cons.2 ⟨?_, hgreatest⟩⟩
        exact fun heq => absurd heq.symm hkey
    · intro ⟨hmem, hgreatest⟩
      obtain ⟨hc, hothers⟩ := List.forall_mem_cons.1 hgreatest
      rcases List.mem_cons.1 hmem with heq | ha
      · exact .inl heq
      · have hlt := hfirst a ha
        -- The first entry has a greater rank, so that it is under another key.
        have hkey : key a ≠ key c := fun heq => by
          have hle := hc heq.symm
          omega
        exact .inr ⟨hrest.2 ⟨ha, hothers⟩, hkey⟩

end JobLedger
