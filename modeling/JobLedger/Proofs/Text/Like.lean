import JobLedger.Proofs.Text.Decimal
import JobLedger.Text.Like

/-!
# Texts in patterns

A text that was put into a pattern with a wildcard behind it matches, whatever comes after it: each
character stands for itself, whether it had to be escaped or not. This holds of texts with a NUL as
well, since text and pattern end at it together. Where there is no NUL, such a pattern matches what
begins with the text, up to the case of ASCII letters, and nothing else.
-/

namespace JobLedger.Text.Like

@[simp] theorem sameLetter_self (c : Char) : sameLetter c c = true := by
  rw [sameLetter, decide_eq_true_eq]

/-- Digits have no case. -/
theorem sameLetter_digits {c d : Char} (hc : c.isDigit = true) (hd : d.isDigit = true) :
    sameLetter c d = decide (c = d) := by
  have hlower {x : Char} (hx : x.isDigit = true) : x.toLower = x := by
    have hbounds := (isDigit_bounds hx).2
    refine dif_neg ?_
    rintro ⟨hupper, -⟩
    have hle : 'A'.toNat ≤ x.toNat := UInt32.le_iff_toNat_le.mp hupper
    have hletters : 'A'.toNat = 65 ∧ '9'.toNat = 57 := ⟨rfl, rfl⟩
    omega
  rw [sameLetter, hlower hc, hlower hd]

/-- A digit has no meaning in patterns, and ends no text. -/
theorem plain_of_isDigit {c : Char} (hc : c.isDigit = true) :
    ¬ (c = '%' ∨ c = '_' ∨ c = '\\') ∧ c ≠ '\x00' := by
  refine ⟨?_, ?_⟩
  · rintro (rfl | rfl | rfl) <;> exact absurd hc (by decide)
  · rintro rfl
    exact absurd hc (by decide)

/-- A character that has no meaning in patterns is an item of its own. -/
theorem items_plain {c : Char} (hc : ¬ (c = '%' ∨ c = '_' ∨ c = '\\')) (rest : List Char) :
    items (c :: rest) = .just c :: items rest := by
  simp only [not_or] at hc
  rw [items.eq_def]
  split <;> simp_all

/-- A backslash takes the character behind it literally. -/
@[simp] theorem items_escaped (c : Char) (rest : List Char) :
    items ('\\' :: c :: rest) = .just c :: items rest := rfl

theorem beforeNul_nil : beforeNul [] = [] := rfl

theorem beforeNul_nul (rest : List Char) : beforeNul ('\x00' :: rest) = [] := rfl

/-- A character that is no NUL is seen. -/
theorem beforeNul_cons {c : Char} (hc : c ≠ '\x00') (rest : List Char) :
    beforeNul (c :: rest) = c :: beforeNul rest :=
  List.takeWhile_cons_of_pos (by simpa using hc)

/-- A wildcard for any run matches every text. -/
theorem matchItems_run (text : List Char) : matchItems [.run] text = true := by
  induction text with
  | nil => rw [matchItems, matchItems, List.isEmpty_nil]
  | cons c rest ih => rw [matchItems, ih, Bool.or_true]

/-- A character that has no meaning in patterns stands for itself, up to the case of letters. -/
theorem matches_cons {c : Char} (hc : ¬ (c = '%' ∨ c = '_' ∨ c = '\\')) (hnul : c ≠ '\x00') {d : Char}
    (hnul' : d ≠ '\x00') (pattern text : List Char) :
    matches? (c :: pattern) (d :: text) = (sameLetter c d && matches? pattern text) := by
  rw [matches?, beforeNul_cons hnul, beforeNul_cons hnul', items_plain hc, matchItems]
  rfl

/-- A text begins with what was put into a pattern before a final wildcard. -/
theorem matches_escape_append (text after : List Char) :
    matches? (escape text ++ ['%']) (text ++ after) = true := by
  induction text with
  | nil => exact matchItems_run _
  | cons c rest ih =>
    by_cases hspecial : c = '%' ∨ c = '_' ∨ c = '\\'
    · rw [matches?] at ih ⊢
      have hnul : c ≠ '\x00' := by rcases hspecial with rfl | rfl | rfl <;> decide
      rw [escape, if_pos hspecial, List.cons_append, List.cons_append, List.cons_append,
        beforeNul_cons (by decide), beforeNul_cons hnul, beforeNul_cons hnul, items_escaped,
        matchItems, sameLetter_self, Bool.true_and]
      exact ih
    · rw [escape, if_neg hspecial, List.cons_append, List.cons_append]
      by_cases hnul : c = '\x00'
      · rw [matches?, hnul, beforeNul_nul, beforeNul_nul, items, matchItems, List.isEmpty_nil]
      · rw [matches_cons hspecial hnul hnul, sameLetter_self, Bool.true_and]
        exact ih

/-! ## What a pattern with a literal beginning matches -/

/-- How a text fits the items of a pattern: it is made of one piece for each item. -/
inductive Fits : List Item → List Char → Prop where
  | nil : Fits [] []
  | run {rest : List Item} {after : List Char} (before : List Char) (fits : Fits rest after) :
    Fits (.run :: rest) (before ++ after)
  | one {rest : List Item} {after : List Char} (c : Char) (fits : Fits rest after) :
    Fits (.one :: rest) (c :: after)
  | just {p c : Char} {rest : List Item} {after : List Char} (same : p.toLower = c.toLower)
    (fits : Fits rest after) : Fits (.just p :: rest) (c :: after)

/-- A run may take any number of characters before the rest matches. -/
theorem matchItems_run_append {rest : List Item} {after : List Char}
    (h : matchItems rest after = true) (before : List Char) :
    matchItems (.run :: rest) (before ++ after) = true := by
  induction before with
  | nil =>
    cases after with
    | nil => rw [List.nil_append, matchItems, h]
    | cons c after => rw [List.nil_append, matchItems, h, Bool.true_or]
  | cons c before ih => rw [List.cons_append, matchItems, ih, Bool.or_true]

/-- The matcher finds a way to fit the text if there is one. -/
theorem matchItems_iff_fits {items : List Item} {text : List Char} :
    matchItems items text = true ↔ Fits items text := by
  constructor
  · intro h
    fun_induction matchItems items text with
    | case1 text =>
      obtain rfl := List.isEmpty_iff.mp h
      exact .nil
    | case2 rest ih => exact .run [] (ih h)
    | case3 rest c text ihHere ihLater =>
      rcases (Bool.or_eq_true _ _).mp h with hhere | hlater
      · exact .run [] (ihHere hhere)
      · cases ihLater hlater with
        | run before fits => exact .run (c :: before) fits
    | case4 rest c text ih => exact .one c (ih h)
    | case5 rest p c text ih =>
      obtain ⟨hsame, hrest⟩ := (Bool.and_eq_true _ _).mp h
      exact .just (of_decide_eq_true hsame) (ih hrest)
    | case6 => cases h
  · intro h
    induction h with
    | nil => rw [matchItems, List.isEmpty_nil]
    | run before fits ih => exact matchItems_run_append ih before
    | one c fits ih => rw [matchItems, ih]
    | just same fits ih => rw [matchItems, sameLetter, same, ih, decide_eq_true rfl, Bool.true_and]

/-- The items of an escaped text are its characters, each taken literally, whatever they are. -/
theorem items_escape_append (literal rest : List Char) :
    items (escape literal ++ rest) = literal.map Item.just ++ items rest := by
  induction literal with
  | nil => rfl
  | cons c literal ih =>
    rw [escape]
    split
    next hspecial =>
      rw [List.cons_append, List.cons_append, items_escaped, ih, List.map_cons, List.cons_append]
    next hplain =>
      rw [List.cons_append, items_plain hplain, ih, List.map_cons, List.cons_append]

/-- What fits characters that are followed by a run begins with them, up to the case of letters. -/
theorem fits_literal_iff {literal text : List Char} :
    Fits (literal.map Item.just ++ [.run]) text ↔
      literal.map Char.toLower <+: text.map Char.toLower := by
  induction literal generalizing text with
  | nil =>
    refine ⟨fun _ => List.nil_prefix, fun _ => ?_⟩
    have h := Fits.run text .nil
    rwa [List.append_nil] at h
  | cons p literal ih =>
    cases text with
    | nil =>
      refine ⟨fun h => (nomatch h), fun h => ?_⟩
      exact absurd (List.prefix_nil.mp h) (List.cons_ne_nil _ _)
    | cons c text =>
      rw [List.map_cons, List.map_cons, List.cons_append, List.map_cons, List.cons_prefix_cons, ← ih]
      constructor
      · intro h
        cases h with
        | just same fits => exact ⟨same, fits⟩
      · rintro ⟨same, fits⟩
        exact .just same fits

/-- A text without a NUL stands before the first NUL of whatever begins with it. -/
theorem beforeNul_append {text : List Char} (h : '\x00' ∉ text) (rest : List Char) :
    beforeNul (text ++ rest) = text ++ beforeNul rest := by
  refine List.takeWhile_append_of_pos fun c hc => ?_
  rw [decide_eq_true_eq]
  rintro rfl
  exact h hc

/-- A text without a NUL is seen as a whole. -/
theorem beforeNul_of_not_mem {text : List Char} (h : '\x00' ∉ text) : beforeNul text = text := by
  have happend := beforeNul_append h []
  rwa [beforeNul_nil, List.append_nil] at happend

/-- Escaping brings no character into a text but backslashes. -/
theorem mem_of_mem_escape {c : Char} (hc : c ≠ '\\') {text : List Char} (h : c ∈ escape text) :
    c ∈ text := by
  induction text with
  | nil => exact h
  | cons d text ih =>
    rw [escape] at h
    split at h <;> simp only [List.mem_cons, hc, false_or] at h ⊢ <;> exact h.imp_right ih

/-- A text that was put into a pattern before a final wildcard is matched by what begins with it, up
to the case of letters, and by nothing else. -/
theorem matches_escape_iff {literal text : List Char} (hliteral : '\x00' ∉ literal)
    (htext : '\x00' ∉ text) : matches? (escape literal ++ ['%']) text = true ↔
      literal.map Char.toLower <+: text.map Char.toLower := by
  have hpattern : '\x00' ∉ escape literal ++ ['%'] := by
    intro hmem
    rcases List.mem_append.mp hmem with hescaped | hrun
    · exact hliteral (mem_of_mem_escape (by decide) hescaped)
    · exact absurd hrun (by decide)
  rw [matches?, beforeNul_of_not_mem hpattern, beforeNul_of_not_mem htext, items_escape_append,
    matchItems_iff_fits]
  exact fits_literal_iff

/-! ## Sizes -/

/-- A text has at most four octets for each character. -/
theorem utf8ByteSize_ofList_le (text : List Char) :
    (String.ofList text).utf8ByteSize ≤ 4 * text.length := by
  induction text with
  | nil => exact Nat.le_refl _
  | cons c rest ih =>
    have hc := c.utf8Size_le_four
    rw [String.ofList_cons, String.utf8ByteSize_append, String.utf8ByteSize_singleton,
      List.length_cons]
    omega

/-- Escaping at most doubles the octets of a text. -/
theorem utf8ByteSize_escape_le (text : List Char) :
    (String.ofList (escape text)).utf8ByteSize ≤ 2 * (String.ofList text).utf8ByteSize := by
  induction text with
  | nil => exact Nat.le_refl _
  | cons c rest ih =>
    have hc := c.utf8Size_pos
    have hbackslash : '\\'.utf8Size = 1 := by decide
    rw [escape]
    split
    all_goals
      simp only [String.ofList_cons, String.utf8ByteSize_append, String.utf8ByteSize_singleton]
      omega

end JobLedger.Text.Like
