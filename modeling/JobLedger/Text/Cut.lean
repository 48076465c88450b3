/-!
# Cutting a text at a separator

A text is cut at the first, at the last or at every occurrence of a separator. The parts put
together again with the separator between them give the text, and the first part of a first cut (the
last part of a last cut) does not hold the separator.
-/

namespace JobLedger.Text

/-- The text before and after the first `sep`, if there is one. -/
def cutFirst (sep : Char) : List Char → Option (List Char × List Char)
  | [] => none
  | c :: rest =>
    if c = sep then some ([], rest)
    else (cutFirst sep rest).map fun parts => (c :: parts.1, parts.2)

/-- The text before and after the last `sep`, if there is one. -/
def cutLast (sep : Char) : List Char → Option (List Char × List Char)
  | [] => none
  | c :: rest =>
    match cutLast sep rest with
    | some (before, after) => some (c :: before, after)
    | none => if c = sep then some ([], rest) else none

/-- The part of a text before the first `sep`, and the parts behind it. -/
def split (sep : Char) : List Char → List Char × List (List Char)
  | [] => ([], [])
  | c :: rest =>
    let (first, others) := split sep rest
    if c = sep then ([], first :: others) else (c :: first, others)

/-- The parts of a text between the occurrences of `sep`, in order; at least one. -/
def parts (sep : Char) (text : List Char) : List (List Char) :=
  let (first, others) := split sep text
  first :: others

/-- A text is cut at the first separator. -/
theorem cutFirst_append {sep : Char} {before : List Char} (h : sep ∉ before)
    (after : List Char) : cutFirst sep (before ++ sep :: after) = some (before, after) := by
  induction before with
  | nil => simp [cutFirst]
  | cons c rest ih =>
    simp only [List.mem_cons, not_or] at h
    simp [cutFirst, Ne.symm h.1, ih h.2]

/-- A text without a separator is not cut. -/
theorem cutLast_eq_none {sep : Char} {text : List Char} (h : sep ∉ text) :
    cutLast sep text = none := by
  induction text with
  | nil => rfl
  | cons c rest ih =>
    simp only [List.mem_cons, not_or] at h
    simp [cutLast, Ne.symm h.1, ih h.2]

/-- A text is cut at the last separator. -/
theorem cutLast_append {sep : Char} {after : List Char} (h : sep ∉ after)
    (before : List Char) : cutLast sep (before ++ sep :: after) = some (before, after) := by
  induction before with
  | nil => simp [cutLast, cutLast_eq_none h]
  | cons c rest ih => simp [cutLast, ih]

/-- What is cut at the first separator has none in its first part. -/
theorem eq_append_of_cutFirst {sep : Char} {text before after : List Char}
    (h : cutFirst sep text = some (before, after)) :
    text = before ++ sep :: after ∧ sep ∉ before := by
  induction text generalizing before with
  | nil => simp [cutFirst] at h
  | cons c rest ih =>
    by_cases hc : c = sep
    · simp [cutFirst, hc] at h
      obtain ⟨rfl, rfl⟩ := h
      simp [hc]
    · simp only [cutFirst, hc, if_false, Option.map_eq_some_iff] at h
      obtain ⟨⟨a, b⟩, hab, heq⟩ := h
      obtain ⟨rfl, rfl⟩ := Prod.mk.inj heq
      obtain ⟨rfl, hm⟩ := ih hab
      simp [hm, Ne.symm hc]

/-- A text with a separator is cut at the last one. -/
theorem exists_cutLast {sep : Char} {text : List Char} (h : sep ∈ text) :
    ∃ before after, cutLast sep text = some (before, after) := by
  induction text with
  | nil => exact nomatch h
  | cons c rest ih =>
    rw [cutLast]
    cases hrest : cutLast sep rest with
    | some parts => exact ⟨c :: parts.1, parts.2, rfl⟩
    | none =>
      have hnot : sep ∉ rest := by
        intro hmem
        obtain ⟨before, after, hcut⟩ := ih hmem
        exact nomatch hrest.symm.trans hcut
      have hc : c = sep := ((List.mem_cons.mp h).resolve_right hnot).symm
      exact ⟨[], rest, if_pos hc⟩

/-- What is cut at the last separator has none in its second part. -/
theorem eq_append_of_cutLast {sep : Char} {text before after : List Char}
    (h : cutLast sep text = some (before, after)) :
    text = before ++ sep :: after ∧ sep ∉ after := by
  induction text generalizing before with
  | nil => simp [cutLast] at h
  | cons c rest ih =>
    rw [cutLast] at h
    cases hr : cutLast sep rest with
    | some parts =>
      obtain ⟨a, b⟩ := parts
      simp only [hr, Option.some.injEq, Prod.mk.injEq] at h
      obtain ⟨rfl, rfl⟩ := h
      obtain ⟨rfl, hm⟩ := ih hr
      simp [hm]
    | none =>
      simp only [hr] at h
      by_cases hc : c = sep
      · simp only [hc, if_true, Option.some.injEq, Prod.mk.injEq] at h
        obtain ⟨rfl, rfl⟩ := h
        refine ⟨by simp [hc], fun hm => ?_⟩
        obtain ⟨_, _, hcut⟩ := exists_cutLast hm
        exact nomatch hr.symm.trans hcut
      · simp [hc] at h

end JobLedger.Text
