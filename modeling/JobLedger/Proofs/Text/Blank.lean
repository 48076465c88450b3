import JobLedger.Text.Blank
import JobLedger.Text.Cut
import JobLedger.Proofs.Text.Runs

/-!
# Texts in white space

A text without the white space at its ends is the one text that neither begins nor ends with white
space and has nothing but white space around it. Cut at a separator that is no white space, a text
in white space has the parts of the text without it, only that the first and the last one may have
white space around them.
-/

namespace JobLedger.Text

/-- A text is another one, which neither begins nor ends with white space, in white space. -/
inductive Trims : List Char → List Char → Prop
  | intro {lead core trail : List Char} (hlead : ∀ c ∈ lead, isBlank c = true)
      (hfirst : ∀ c ∈ core.head?, isBlank c = false)
      (hlast : ∀ c ∈ core.getLast?, isBlank c = false)
      (htrail : ∀ c ∈ trail, isBlank c = true) : Trims (lead ++ core ++ trail) core

/-- A text is the one without the white space at its ends in white space. -/
theorem trims_trim (text : List Char) : Trims text (trim text) := by
  have hlead := List.takeWhile_append_dropWhile (p := isBlank) (l := text)
  generalize hrest : text.dropWhile isBlank = rest at hlead
  have htrail := List.takeWhile_append_dropWhile (p := isBlank) (l := rest.reverse)
  have hsplit : rest = (rest.reverse.dropWhile isBlank).reverse ++
      (rest.reverse.takeWhile isBlank).reverse := by
    rw [← List.reverse_append, htrail, List.reverse_reverse]
  have htrim : trim text = (rest.reverse.dropWhile isBlank).reverse := by rw [trim, hrest]
  have htext : text = text.takeWhile isBlank ++ trim text ++
      (rest.reverse.takeWhile isBlank).reverse := by
    rw [htrim, List.append_assoc, ← hsplit, hlead]
  have hfirst : ∀ c ∈ (trim text).head?, isBlank c = false := by
    intro c hc
    apply head?_dropWhile isBlank text c
    rw [hrest, hsplit, ← htrim, Option.mem_def, List.head?_append, Option.mem_def.mp hc,
      Option.some_or]
  have hlast : ∀ c ∈ (trim text).getLast?, isBlank c = false := by
    intro c hc
    rw [htrim, List.getLast?_reverse] at hc
    exact head?_dropWhile isBlank _ c hc
  have hblank : ∀ c ∈ (rest.reverse.takeWhile isBlank).reverse, isBlank c = true := by
    intro c hc
    exact forall_takeWhile isBlank _ c (List.mem_reverse.mp hc)
  have htrims := Trims.intro (forall_takeWhile isBlank text) hfirst hlast hblank
  rwa [← htext] at htrims

/-- No other text is in white space the same text. -/
theorem Trims.trim_eq {text core : List Char} (h : Trims text core) : trim text = core := by
  cases h with
  | @intro lead core trail hlead hfirst hlast htrail =>
    have hdropped : (lead ++ core ++ trail).dropWhile isBlank =
        if core = [] then [] else core ++ trail := by
      rw [List.append_assoc, List.dropWhile_append_of_pos hlead]
      split
      · next hempty =>
        have hall : (trail ++ []).dropWhile isBlank = [] := List.dropWhile_append_of_pos htrail
        rw [List.append_nil] at hall
        rw [hempty, List.nil_append, hall]
      · next hne =>
        apply dropWhile_eq_self_of_head?
        intro c hc
        obtain ⟨d, rest, rfl⟩ := List.exists_cons_of_ne_nil hne
        exact hfirst c hc
    rw [trim, hdropped]
    split
    · next hempty => rw [hempty]; rfl
    · next hne =>
      have hreversed : ∀ c ∈ trail.reverse, isBlank c = true :=
        fun c hc => htrail c (List.mem_reverse.mp hc)
      have hback : ∀ c ∈ core.reverse.head?, isBlank c = false := by
        rw [List.head?_reverse]
        exact hlast
      rw [List.reverse_append, List.dropWhile_append_of_pos hreversed,
        dropWhile_eq_self_of_head? hback, List.reverse_reverse]

/-- More white space around a text makes no difference. -/
theorem Trims.surround {text core lead trail : List Char} (h : Trims text core)
    (hlead : ∀ c ∈ lead, isBlank c = true) (htrail : ∀ c ∈ trail, isBlank c = true) :
    Trims (lead ++ text ++ trail) core := by
  cases h with
  | @intro front core back hfront hfirst hlast hback =>
    have hlead' : ∀ c ∈ lead ++ front, isBlank c = true :=
      fun c hc => (List.mem_append.mp hc).elim (hlead c) (hfront c)
    have htrail' : ∀ c ∈ back ++ trail, isBlank c = true :=
      fun c hc => (List.mem_append.mp hc).elim (hback c) (htrail c)
    have htrims := Trims.intro hlead' hfirst hlast htrail'
    simpa only [List.append_assoc] using htrims

/-- A text that neither begins nor ends with white space is as it is. -/
theorem Trims.self {text : List Char} (hfirst : ∀ c ∈ text.head?, isBlank c = false)
    (hlast : ∀ c ∈ text.getLast?, isBlank c = false) : Trims text text := by
  have hnone : ∀ c ∈ ([] : List Char), isBlank c = true := fun _ hc => (nomatch hc)
  have htrims := Trims.intro hnone hfirst hlast hnone
  rwa [List.nil_append, List.append_nil] at htrims

/-- The text without white space has no more octets. -/
theorem Trims.utf8ByteSize_le {text core : List Char} (h : Trims text core) :
    (String.ofList core).utf8ByteSize ≤ (String.ofList text).utf8ByteSize := by
  cases h with
  | intro =>
    rw [String.ofList_append, String.ofList_append, String.utf8ByteSize_append,
      String.utf8ByteSize_append]
    omega

/-! ## Parts of a text in white space -/

section Parts

variable {sep : Char} {lead core trail : List Char}

/-- White space is in front of a text and behind it. -/
def InBlanks (bare part : List Char) : Prop :=
  ∃ lead trail, (∀ c ∈ lead, isBlank c = true) ∧ (∀ c ∈ trail, isBlank c = true) ∧
    part = lead ++ bare ++ trail

theorem split_cons_self (sep : Char) (rest : List Char) :
    split sep (sep :: rest) = ([], (split sep rest).1 :: (split sep rest).2) :=
  if_pos rfl

theorem split_cons_of_ne {c : Char} (h : c ≠ sep) (rest : List Char) :
    split sep (c :: rest) = (c :: (split sep rest).1, (split sep rest).2) :=
  if_neg h

/-- White space in front of a text belongs to its first part. -/
theorem split_append_left (hsep : isBlank sep = false) (hlead : ∀ c ∈ lead, isBlank c = true)
    (text : List Char) :
    split sep (lead ++ text) = (lead ++ (split sep text).1, (split sep text).2) := by
  induction lead with
  | nil => rfl
  | cons c rest ih =>
    obtain ⟨hc, hrest⟩ := List.forall_mem_cons.mp hlead
    have hne : c ≠ sep := fun heq => absurd (heq ▸ hc) (Bool.eq_false_iff.mp hsep)
    rw [List.cons_append, split_cons_of_ne hne, ih hrest]
    rfl

/-- White space behind a text belongs to its last part, be it the first one too. -/
theorem split_append_right (hsep : isBlank sep = false) (htrail : ∀ c ∈ trail, isBlank c = true)
    (text : List Char) :
    (∃ behind, (∀ c ∈ behind, isBlank c = true) ∧
      (split sep (text ++ trail)).1 = (split sep text).1 ++ behind) ∧
    ∀ part ∈ (split sep (text ++ trail)).2, ∃ bare ∈ (split sep text).2, InBlanks bare part := by
  induction text with
  | nil =>
    have hwhole := split_append_left hsep htrail []
    rw [List.append_nil] at hwhole
    rw [List.nil_append, hwhole]
    exact ⟨⟨trail, htrail, List.append_nil trail⟩, fun _ hpart => (nomatch hpart)⟩
  | cons c rest ih =>
    obtain ⟨⟨behind, hbehind, hfirst⟩, hothers⟩ := ih
    rw [List.cons_append]
    by_cases hc : c = sep
    · subst hc
      rw [split_cons_self, split_cons_self]
      refine ⟨⟨[], fun _ hc => (nomatch hc), rfl⟩, ?_⟩
      intro part hpart
      rcases List.mem_cons.mp hpart with heq | hmem
      · refine ⟨_, List.mem_cons_self, [], behind, fun _ hc => (nomatch hc), hbehind, ?_⟩
        rw [heq, hfirst, List.nil_append]
      · obtain ⟨bare, hbare, hblanks⟩ := hothers part hmem
        exact ⟨bare, List.mem_cons_of_mem _ hbare, hblanks⟩
    · rw [split_cons_of_ne hc, split_cons_of_ne hc]
      exact ⟨⟨behind, hbehind, congrArg (c :: ·) hfirst⟩, hothers⟩

/-- The parts of a text in white space are the parts of the text, some in white space. -/
theorem exists_part_inBlanks (hsep : isBlank sep = false) (hlead : ∀ c ∈ lead, isBlank c = true)
    (htrail : ∀ c ∈ trail, isBlank c = true) {part : List Char}
    (h : part ∈ parts sep (lead ++ core ++ trail)) :
    ∃ bare ∈ parts sep core, InBlanks bare part := by
  obtain ⟨⟨behind, hbehind, hfirst⟩, hothers⟩ := split_append_right hsep htrail core
  rw [parts, List.append_assoc, split_append_left hsep hlead] at h
  rcases List.mem_cons.mp h with heq | hmem
  · refine ⟨_, List.mem_cons_self, lead, behind, hlead, hbehind, ?_⟩
    rw [heq, hfirst, List.append_assoc]
  · obtain ⟨bare, hbare, hblanks⟩ := hothers part hmem
    exact ⟨bare, List.mem_cons_of_mem _ hbare, hblanks⟩

end Parts

end JobLedger.Text
