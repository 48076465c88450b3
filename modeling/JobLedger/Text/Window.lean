import JobLedger.Text.Like

/-!
# Windows of a text

A query counts the characters of a text, and takes those in a window of it by their positions, which
are counted from one. Both see a text only as far as its first NUL.
-/

namespace JobLedger.Text

/-- The number of characters that a query counts in a text. -/
def visibleLength (text : List Char) : Nat := (Like.beforeNul text).length

/-- The characters of a text at `count` positions from `start` on, as far as there are any. -/
def window (start count : Nat) (text : List Char) : List Char :=
  ((Like.beforeNul text).take (start + count - 1)).drop (start - 1)

/-- The window at the first position. -/
theorem window_one (count : Nat) (text : List Char) :
    window 1 count text = (Like.beforeNul text).take count := by
  rw [window, Nat.sub_self, List.drop_zero, Nat.add_sub_cancel_left]

end JobLedger.Text
