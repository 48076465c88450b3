/-!
# Runs at the start of a text

A reader takes the characters of one kind at the start of a text and goes on behind them. Behind
such a run there is no character of the kind, and a text that begins with none of them has an empty
run.
-/

namespace JobLedger.Text

variable {p : Char → Bool} {text : List Char}

/-- Nothing is taken if the first character ends the run. -/
theorem takeWhile_eq_nil_of_head? (h : ∀ c ∈ text.head?, p c = false) :
    text.takeWhile p = [] := by
  cases text with
  | nil => rfl
  | cons c rest =>
    have hc : ¬ p c = true := Bool.not_eq_true _ ▸ h c rfl
    exact List.takeWhile_cons_of_neg hc

/-- Nothing is dropped if the first character ends the run. -/
theorem dropWhile_eq_self_of_head? (h : ∀ c ∈ text.head?, p c = false) :
    text.dropWhile p = text := by
  cases text with
  | nil => rfl
  | cons c rest =>
    have hc : ¬ p c = true := Bool.not_eq_true _ ▸ h c rfl
    exact List.dropWhile_cons_of_neg hc

/-- Behind a run of characters there is none of them. -/
theorem head?_dropWhile (p : Char → Bool) (text : List Char) :
    ∀ c ∈ (text.dropWhile p).head?, p c = false := by
  intro c hc
  have hnot := List.head?_dropWhile_not p text
  rw [Option.mem_def.mp hc] at hnot
  exact hnot

theorem forall_takeWhile (p : Char → Bool) (text : List Char) :
    ∀ c ∈ text.takeWhile p, p c = true :=
  List.all_eq_true.mp List.all_takeWhile

end JobLedger.Text
