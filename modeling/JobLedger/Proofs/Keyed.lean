/-!
# Rows under keys

A table keeps every row under a key that the row itself holds. Where no two rows have one key,
looking up a key finds exactly the row that has it. Rows that are changed keep their keys.
-/

namespace JobLedger

variable {α κ : Type} [DecidableEq κ] {key : α → κ} {rows : List α}

/-- No two rows have one key. -/
def DistinctKeys (key : α → κ) (rows : List α) : Prop := rows.Pairwise fun a b => key a ≠ key b

/-- A row that is found by its key has the key. -/
theorem key_of_find? (key : α → κ) {k : κ} {a : α}
    (h : (rows.find? fun b => key b = k) = some a) : key a = k := by
  simpa using List.find?_some h

/-- A key is looked up with the row that has it. -/
theorem DistinctKeys.find?_eq_some_iff (h : DistinctKeys key rows) {k : κ} {a : α} :
    (rows.find? fun b => key b = k) = some a ↔ a ∈ rows ∧ key a = k := by
  constructor
  · intro hfind
    exact ⟨List.mem_of_find?_eq_some hfind, key_of_find? key hfind⟩
  · rintro ⟨hmem, rfl⟩
    induction rows with
    | nil => simp at hmem
    | cons b rest ih =>
      obtain ⟨hb, hrest⟩ := List.pairwise_cons.mp h
      rcases List.mem_cons.mp hmem with rfl | hmem
      · simp
      · rw [List.find?_cons_of_neg (by simpa using hb a hmem)]
        exact ih hrest hmem

/-- No row is found under a key if none has it. -/
theorem find?_key_eq_none_iff {k : κ} :
    (rows.find? fun b => key b = k) = none ↔ ∀ a ∈ rows, key a ≠ k := by
  simp

/-- A key that no row has may be given to a new row. -/
theorem DistinctKeys.append (h : DistinctKeys key rows) {a : α}
    (hnew : (rows.find? fun b => key b = key a) = none) : DistinctKeys key (rows ++ [a]) := by
  rw [find?_key_eq_none_iff] at hnew
  refine List.pairwise_append.mpr ⟨h, List.pairwise_singleton _ _, ?_⟩
  intro b hb c hc
  rw [List.mem_singleton.mp hc]
  exact hnew b hb

/-- A key finds the same row among those of some keys that it is one of. -/
theorem find?_filter_key (key : α → κ) (p : κ → Bool) {k : κ} (hk : p k = true) :
    ((rows.filter fun a => p (key a)).find? fun a => key a = k) =
      rows.find? fun a => key a = k := by
  rw [List.find?_filter]
  congr 1
  funext a
  by_cases ha : key a = k
  · simp [ha, hk]
  · simp [ha]

omit [DecidableEq κ] in
/-- Rows that stay have distinct keys. -/
theorem DistinctKeys.filter (h : DistinctKeys key rows) (stays : α → Bool) :
    DistinctKeys key (rows.filter stays) :=
  List.Pairwise.filter stays h

omit [DecidableEq κ] in
/-- Keys stay distinct in another order of rows. -/
theorem DistinctKeys.perm {others : List α} (h : DistinctKeys key rows)
    (hperm : rows.Perm others) : DistinctKeys key others :=
  hperm.pairwise h fun hne => Ne.symm hne

/-- Rows with the same key are the same row. -/
theorem DistinctKeys.eq_of_key_eq (h : DistinctKeys key rows) {a b : α} (ha : a ∈ rows)
    (hb : b ∈ rows) (hkey : key a = key b) : a = b := by
  have hfind := h.find?_eq_some_iff.mpr ⟨ha, rfl⟩
  rw [h.find?_eq_some_iff.mpr ⟨hb, hkey.symm⟩] at hfind
  exact (Option.some.inj hfind).symm

/-- Exactly one row has the key of a row. -/
theorem DistinctKeys.filter_eq_singleton (h : DistinctKeys key rows) {a : α} (ha : a ∈ rows) :
    rows.filter (fun b => key b = key a) = [a] := by
  obtain ⟨before, behind, rfl⟩ := List.append_of_mem ha
  obtain ⟨-, hbehind, hbefore⟩ := List.pairwise_append.mp h
  have hnone : before.filter (fun b => key b = key a) = [] :=
    List.filter_eq_nil_iff.mpr fun b hb => by simpa using hbefore b hb a List.mem_cons_self
  have hnone' : behind.filter (fun b => key b = key a) = [] :=
    List.filter_eq_nil_iff.mpr fun b hb => by
      simpa using Ne.symm (List.rel_of_pairwise_cons hbehind hb)
  rw [List.filter_append, hnone, List.filter_cons_of_pos (by simp), hnone', List.nil_append]

/-- The key of a row is among those of some rows exactly if the row is among them. -/
theorem DistinctKeys.contains_map_filter (h : DistinctKeys key rows) {p : α → Bool} {a : α}
    (ha : a ∈ rows) : ((rows.filter p).map key).contains (key a) = p a := by
  rw [Bool.eq_iff_iff, List.contains_iff_mem, List.mem_map]
  constructor
  · rintro ⟨b, hb, hkey⟩
    obtain ⟨hmem, hp⟩ := List.mem_filter.mp hb
    rwa [← h.eq_of_key_eq hmem ha hkey]
  · intro hp
    exact ⟨a, List.mem_filter.mpr ⟨ha, hp⟩, rfl⟩

/-- A row that is pointed to stays, unless its key is among those that go. -/
theorem exists_mem_filter {P : α → Prop} {p : α → Bool} {k : κ} (h : ∃ a ∈ rows, P a)
    (hkey : ∀ a, P a → key a = k) (hk : ((rows.filter p).map key).contains k = false) :
    ∃ a ∈ rows.filter (fun a => !p a), P a := by
  obtain ⟨a, ha, hP⟩ := h
  refine ⟨a, List.mem_filter.mpr ⟨ha, ?_⟩, hP⟩
  cases hp : p a with
  | false => rfl
  | true =>
    have hmem : k ∈ (rows.filter p).map key :=
      List.mem_map.mpr ⟨a, List.mem_filter.mpr ⟨ha, hp⟩, hkey a hP⟩
    rw [← List.contains_iff_mem, hk] at hmem
    exact absurd hmem Bool.false_ne_true

/-- Rows that a filter takes may be added before it or after it. -/
theorem filter_append_of_all {p : α → Bool} {more : List α} (h : ∀ a ∈ more, p a = true) :
    (rows ++ more).filter p = rows.filter p ++ more := by
  rw [List.filter_append, List.filter_eq_self.mpr h]

/-- Rows that a filter leaves out make no difference to what it takes. -/
theorem filter_append_of_none {p : α → Bool} {more : List α} (h : ∀ a ∈ more, p a = false) :
    (rows ++ more).filter p = rows.filter p := by
  have hnone : more.filter p = [] :=
    List.filter_eq_nil_iff.mpr fun a ha => Bool.not_eq_true _ ▸ h a ha
  rw [List.filter_append, hnone, List.append_nil]

/-- Where a filter takes the same, it takes rows that are there. -/
theorem mem_of_filter_eq {p : α → Bool} {others : List α} {a : α}
    (h : rows.filter p = others.filter p) (ha : a ∈ rows) (hp : p a = true) : a ∈ others := by
  have hmem : a ∈ rows.filter p := List.mem_filter.mpr ⟨ha, hp⟩
  rw [h] at hmem
  exact (List.mem_filter.mp hmem).1

/-- The rows that a filter takes away. -/
theorem length_sub_length_filter (p : α → Bool) (rows : List α) :
    rows.length - (rows.filter fun a => !p a).length = (rows.filter p).length := by
  have hsplit := List.length_eq_countP_add_countP p (l := rows)
  have hrest : rows.countP (fun a => ¬ p a) = (rows.filter fun a => !p a).length := by
    rw [List.countP_eq_length_filter]
    simp
  rw [List.countP_eq_length_filter, hrest] at hsplit
  omega

/-- The rows with the one of a key changed. -/
def changeRow (key : α → κ) (k : κ) (f : α → α) (rows : List α) : List α :=
  rows.map fun a => if key a = k then f a else a

section Change

variable {k : κ} {f : α → α}

/-- A change that leaves the key leaves what depends on keys. -/
theorem pairwise_changeRow {r : κ → κ → Prop} (h : rows.Pairwise fun a b => r (key a) (key b))
    (hf : ∀ a, key a = k → key (f a) = key a) :
    (changeRow key k f rows).Pairwise fun a b => r (key a) (key b) := by
  have hkey : ∀ a, key (if key a = k then f a else a) = key a := by
    intro a
    split
    · next hk => exact hf a hk
    · rfl
  rw [changeRow, List.pairwise_map]
  exact h.imp fun hab => by rwa [hkey, hkey]

/-- What holds of every row and survives the change holds of every row afterwards. -/
theorem forall_changeRow (key : α → κ) {P : α → Prop} (h : ∀ a ∈ rows, P a)
    (hf : ∀ a, key a = k → P a → P (f a)) : ∀ b ∈ changeRow key k f rows, P b := by
  intro b hb
  obtain ⟨a, ha, rfl⟩ := List.mem_map.mp hb
  split
  · next hk => exact hf a hk (h a ha)
  · exact h a ha

/-- A row with what survives the change is still there afterwards. -/
theorem exists_changeRow {P : α → Prop} (h : ∃ a ∈ rows, P a)
    (hf : ∀ a, key a = k → P a → P (f a)) : ∃ b ∈ changeRow key k f rows, P b := by
  obtain ⟨a, ha, hP⟩ := h
  refine ⟨_, List.mem_map_of_mem ha, ?_⟩
  split
  · next hk => exact hf a hk hP
  · exact hP

/-- What the change neither gives nor takes is among the rows as before. -/
theorem exists_changeRow_iff {P : α → Prop} (hf : ∀ a, P (f a) ↔ P a) :
    (∃ b ∈ changeRow key k f rows, P b) ↔ ∃ a ∈ rows, P a := by
  refine ⟨?_, fun h => exists_changeRow h fun a _ => (hf a).mpr⟩
  rintro ⟨b, hb, hP⟩
  obtain ⟨a, ha, rfl⟩ := List.mem_map.mp hb
  refine ⟨a, ha, ?_⟩
  split at hP
  · exact (hf a).mp hP
  · exact hP

/-- Changes that agree on the row are one change. -/
theorem changeRow_congr {g : α → α} (h : ∀ a ∈ rows, key a = k → f a = g a) :
    changeRow key k f rows = changeRow key k g rows := by
  refine List.map_congr_left fun a ha => ?_
  split
  · next hk => exact h a ha hk
  · rfl

/-- A change that leaves the row leaves all rows. -/
theorem changeRow_eq_self (h : ∀ a ∈ rows, key a = k → f a = a) : changeRow key k f rows = rows := by
  have hsame : changeRow key k f rows = changeRow key k id rows := changeRow_congr h
  have hid : changeRow key k id rows = rows.map id := List.map_congr_left fun a _ => ite_self a
  rw [hsame, hid, List.map_id]

/-- A change of a row that is not taken, neither before nor afterwards, leaves what is taken. -/
theorem filter_changeRow_of_neither {p : α → Bool}
    (h : ∀ a ∈ rows, key a = k → p a = false ∧ p (f a) = false) :
    (changeRow key k f rows).filter p = rows.filter p := by
  induction rows with
  | nil => rfl
  | cons a rest ih =>
    have hrest := ih fun b hb => h b (List.mem_cons_of_mem _ hb)
    have hcons : changeRow key k f (a :: rest) =
        (if key a = k then f a else a) :: changeRow key k f rest := rfl
    rw [hcons]
    split
    · next hk =>
      obtain ⟨hbefore, hafter⟩ := h a List.mem_cons_self hk
      rw [List.filter_cons_of_neg (by simp [hafter]), List.filter_cons_of_neg (by simp [hbefore]),
        hrest]
    · rw [List.filter_cons, List.filter_cons, hrest]

/-- A key finds the row that it found before, changed if it is the one. -/
theorem find?_changeRow (hf : ∀ a, key a = k → key (f a) = key a) (j : κ) :
    ((changeRow key k f rows).find? fun b => key b = j) =
      (rows.find? fun b => key b = j).map fun a => if key a = k then f a else a := by
  have hkey (a : α) : key (if key a = k then f a else a) = key a := by
    split
    · next hk => exact hf a hk
    · rfl
  rw [changeRow, List.find?_map]
  simp only [Function.comp_def, hkey]

/-- What is taken of the rows by their keys may be taken before a change or after it. -/
theorem filter_changeRow (p : κ → Bool) (hf : ∀ a, key a = k → key (f a) = key a) :
    (changeRow key k f rows).filter (fun a => p (key a)) =
      changeRow key k f (rows.filter fun a => p (key a)) := by
  have hkey (a : α) : key (if key a = k then f a else a) = key a := by
    split
    · next hk => exact hf a hk
    · rfl
  rw [changeRow, changeRow, List.filter_map]
  simp only [Function.comp_def, hkey]

/-- A change of a row that is not among those of some keys leaves these. -/
theorem filter_changeRow_of_not {p : κ → Bool} (hp : p k = false)
    (hf : ∀ a, key a = k → key (f a) = key a) :
    (changeRow key k f rows).filter (fun a => p (key a)) = rows.filter fun a => p (key a) := by
  have hsame : ∀ a ∈ rows.filter (fun a => p (key a)), (if key a = k then f a else a) = a := by
    intro a ha
    refine if_neg fun hk => ?_
    have hin : p (key a) = true := (List.mem_filter.mp ha).2
    rw [hk, hp] at hin
    exact nomatch hin
  rw [filter_changeRow p hf, changeRow, List.map_congr_left hsame, List.map_id']

end Change

/-- What is looked up is what stands under the key. -/
theorem lookup_eq_map_find? {β : Type} (entries : List (κ × β)) (k : κ) :
    entries.lookup k = (entries.find? fun e => e.1 = k).map Prod.snd := by
  induction entries with
  | nil => rfl
  | cons e rest ih =>
    rw [List.lookup_cons, ih]
    by_cases hk : k = e.1
    · simp [hk]
    · have hne : (k == e.1) = false := by simpa using hk
      rw [hne, List.find?_cons_of_neg (by simpa using Ne.symm hk)]

/-- Under distinct keys, a key is looked up with the value that stands under it. -/
theorem lookup_eq_some_iff {β : Type} {entries : List (κ × β)}
    (h : DistinctKeys Prod.fst entries) {k : κ} {b : β} :
    entries.lookup k = some b ↔ (k, b) ∈ entries := by
  rw [lookup_eq_map_find?, Option.map_eq_some_iff]
  constructor
  · rintro ⟨entry, hentry, rfl⟩
    obtain ⟨hmem, rfl⟩ := h.find?_eq_some_iff.mp hentry
    exact hmem
  · intro hmem
    exact ⟨(k, b), h.find?_eq_some_iff.mpr ⟨hmem, rfl⟩, rfl⟩

/-- A key is looked up among the entries of some keys that it is one of. -/
theorem lookup_filter_key {β : Type} {entries : List (κ × β)} {p : κ → Bool} {k : κ}
    (hk : p k = true) : (entries.filter fun e => p e.1).lookup k = entries.lookup k := by
  induction entries with
  | nil => rfl
  | cons e rest ih =>
    obtain ⟨held, b⟩ := e
    rw [List.filter_cons]
    split
    · rw [List.lookup_cons, List.lookup_cons, ih]
    · next hout =>
      have hne : (k == held) = false := by
        rw [beq_eq_false_iff_ne]
        rintro rfl
        exact hout hk
      rw [ih, List.lookup_cons, hne]

/-- A key finds the value that it found before, or the one that was put in its place. -/
theorem lookup_changeRow {β : Type} [BEq κ] [LawfulBEq κ] (k j : κ) (b : β)
    (entries : List (κ × β)) :
    (changeRow Prod.fst k (fun e => (e.1, b)) entries).lookup j =
      if j = k then (entries.lookup k).map fun _ => b else entries.lookup j := by
  induction entries with
  | nil => simp [changeRow]
  | cons entry rest ih =>
    obtain ⟨held, old⟩ := entry
    simp only [changeRow, List.map_cons] at ih ⊢
    by_cases hheld : held = k
    · subst hheld
      by_cases hother : j = held
      · subst hother
        simp
      · have hne : (j == held) = false := by simpa using hother
        simpa [List.lookup_cons, hne, hother] using ih
    · by_cases hother : j = k
      · subst hother
        have hne : (j == held) = false := by simpa using Ne.symm hheld
        simpa [List.lookup_cons, hne, hheld] using ih
      · by_cases hsame : j = held
        · simp [hheld, hsame]
        · have hne : (j == held) = false := by simpa using hsame
          simpa [List.lookup_cons, hne, hheld, hother] using ih

/-- Two rows under new keys are found where they were added. -/
theorem lookup_append_pair {β : Type} {entries : List (κ × β)} {first second : κ}
    (hne : first ≠ second) (hfirst : entries.lookup first = none)
    (hsecond : entries.lookup second = none) (b c : β) :
    (entries ++ [(first, b), (second, c)]).lookup first = some b ∧
      (entries ++ [(first, b), (second, c)]).lookup second = some c := by
  have hother : (second == first) = false := by simpa using Ne.symm hne
  rw [List.lookup_append, List.lookup_append, hfirst, hsecond]
  simp [List.lookup_cons, hother]

end JobLedger
