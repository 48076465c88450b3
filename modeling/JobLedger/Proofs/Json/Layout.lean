import JobLedger.Proofs.Json.Scalars

/-!
# Layouts

The compact and the indented form of a value differ in the blanks between the marks only. A layout
says which blanks these are: those in front of the items and members of a level and of the mark that
ends them, and those behind a colon. An array or an object that is empty has none inside. What is
true of the forms in every layout is true of both.
-/

namespace JobLedger.Json

open Text

/-- The blanks between the marks of a text. -/
structure Layout where
  /-- The blanks in front of what stands at a level. -/
  gap : Nat → List Char
  /-- The blanks behind a colon. -/
  space : List Char
  isGap_gap : ∀ level, ∀ c ∈ gap level, IsGap c
  isGap_space : ∀ c ∈ space, IsGap c

/-- No blanks at all. -/
def Layout.compact : Layout := ⟨fun _ => [], [], nofun, nofun⟩

/-- A line for each item and member. -/
def Layout.indented : Layout where
  gap := Value.newLine
  space := [' ']
  isGap_gap level c hc := by
    rcases List.mem_cons.mp hc with rfl | hc
    · exact .inr (.inr (.inl rfl))
    · exact .inl (List.eq_of_mem_replicate hc)
  isGap_space c hc := .inl (List.mem_singleton.mp hc)

namespace Value

variable (layout : Layout)

mutual

/-- The form of a value at a level, in front of the text that follows it. -/
def laidOut (level : Nat) : Value → List Char → List Char
  | null, rest => 'n' :: 'u' :: 'l' :: 'l' :: rest
  | bool true, rest => 't' :: 'r' :: 'u' :: 'e' :: rest
  | bool false, rest => 'f' :: 'a' :: 'l' :: 's' :: 'e' :: rest
  | int i, rest => (integer i).toList ++ rest
  | text s, rest => quote s ++ rest
  | array [], rest => '[' :: ']' :: rest
  | array (item :: items), rest =>
    '[' :: (layout.gap (level + 1) ++
      item.laidOut (level + 1) (laidOutItems level items rest))
  | object [], rest => '{' :: '}' :: rest
  | object (member :: members), rest =>
    '{' :: (layout.gap (level + 1) ++
      laidOutMember (level + 1) member (laidOutMembers level members rest))
  | other, rest => 'n' :: 'u' :: 'l' :: 'l' :: rest

/-- The items of an array behind its first one, and its end. -/
def laidOutItems (level : Nat) : List Value → List Char → List Char
  | [], rest => layout.gap level ++ ']' :: rest
  | item :: items, rest =>
    ',' :: (layout.gap (level + 1) ++
      item.laidOut (level + 1) (laidOutItems level items rest))

/-- The members of an object behind its first one, and its end. -/
def laidOutMembers (level : Nat) : List (String × Value) → List Char → List Char
  | [], rest => layout.gap level ++ '}' :: rest
  | member :: members, rest =>
    ',' :: (layout.gap (level + 1) ++
      laidOutMember (level + 1) member (laidOutMembers level members rest))

/-- One member of an object. -/
def laidOutMember (level : Nat) : String × Value → List Char → List Char
  | (name, value), rest => quote name ++ ':' :: (layout.space ++ value.laidOut level rest)

end

mutual

/-- What follows a value is behind its form. -/
theorem laidOut_append : ∀ (level : Nat) (value : Value) (rest more : List Char),
    value.laidOut layout level rest ++ more = value.laidOut layout level (rest ++ more)
  | _, .null, _, _ | _, .bool true, _, _ | _, .bool false, _, _ | _, .int _, _, _
  | _, .text _, _, _ | _, .array [], _, _ | _, .object [], _, _ | _, .other, _, _ => by
    simp only [laidOut, List.cons_append, List.append_assoc]
  | level, .array (item :: items), rest, more => by
    simp only [laidOut, List.cons_append, List.append_assoc, laidOut_append, laidOutItems_append]
  | level, .object (member :: members), rest, more => by
    simp only [laidOut, List.cons_append, List.append_assoc, laidOutMember_append,
      laidOutMembers_append]

theorem laidOutItems_append : ∀ (level : Nat) (items : List Value) (rest more : List Char),
    laidOutItems layout level items rest ++ more = laidOutItems layout level items (rest ++ more)
  | _, [], _, _ => by simp only [laidOutItems, List.cons_append, List.append_assoc]
  | level, item :: items, rest, more => by
    simp only [laidOutItems, List.cons_append, List.append_assoc, laidOut_append,
      laidOutItems_append]

theorem laidOutMembers_append : ∀ (level : Nat) (members : List (String × Value))
    (rest more : List Char), laidOutMembers layout level members rest ++ more =
      laidOutMembers layout level members (rest ++ more)
  | _, [], _, _ => by simp only [laidOutMembers, List.cons_append, List.append_assoc]
  | level, member :: members, rest, more => by
    simp only [laidOutMembers, List.cons_append, List.append_assoc, laidOutMember_append,
      laidOutMembers_append]

theorem laidOutMember_append : ∀ (level : Nat) (member : String × Value) (rest more : List Char),
    laidOutMember layout level member rest ++ more =
      laidOutMember layout level member (rest ++ more)
  | level, (name, value), rest, more => by
    simp only [laidOutMember, List.cons_append, List.append_assoc, laidOut_append]

end

mutual

/-- The compact form has no blanks. -/
theorem laidOut_compact : ∀ (level : Nat) (value : Value) (rest : List Char),
    value.laidOut .compact level rest = value.renderOnto rest
  | _, .null, _ | _, .bool true, _ | _, .bool false, _ | _, .int _, _ | _, .text _, _
  | _, .array [], _ | _, .object [], _ | _, .other, _ => by rw [laidOut, renderOnto]
  | level, .array (item :: items), rest => by
    rw [laidOut, renderOnto, laidOutItems_compact, laidOut_compact]
    rfl
  | level, .object (member :: members), rest => by
    rw [laidOut, renderOnto, laidOutMembers_compact, laidOutMember_compact]
    rfl

theorem laidOutItems_compact : ∀ (level : Nat) (items : List Value) (rest : List Char),
    laidOutItems .compact level items rest = renderItems items rest
  | _, [], _ => by rw [laidOutItems, renderItems]; rfl
  | level, item :: items, rest => by
    rw [laidOutItems, renderItems, laidOutItems_compact, laidOut_compact]
    rfl

theorem laidOutMembers_compact : ∀ (level : Nat) (members : List (String × Value))
    (rest : List Char), laidOutMembers .compact level members rest = renderMembers members rest
  | _, [], _ => by rw [laidOutMembers, renderMembers]; rfl
  | level, member :: members, rest => by
    rw [laidOutMembers, renderMembers, laidOutMembers_compact, laidOutMember_compact]
    rfl

theorem laidOutMember_compact : ∀ (level : Nat) (member : String × Value) (rest : List Char),
    laidOutMember .compact level member rest = renderMember member rest
  | level, (name, value), rest => by
    rw [laidOutMember, renderMember, laidOut_compact]
    rfl

end

mutual

/-- The indented form has a line for each item and member. -/
theorem laidOut_indented : ∀ (level : Nat) (value : Value) (rest : List Char),
    value.laidOut .indented level rest = value.prettyOnto level rest
  | _, .null, _ | _, .bool true, _ | _, .bool false, _ | _, .int _, _ | _, .text _, _
  | _, .array [], _ | _, .object [], _ | _, .other, _ => by rw [laidOut, prettyOnto]
  | level, .array (item :: items), rest => by
    rw [laidOut, prettyOnto, laidOutItems_indented, laidOut_indented]
    rfl
  | level, .object (member :: members), rest => by
    rw [laidOut, prettyOnto, laidOutMembers_indented, laidOutMember_indented]
    rfl

theorem laidOutItems_indented : ∀ (level : Nat) (items : List Value) (rest : List Char),
    laidOutItems .indented level items rest = prettyItems level items rest
  | _, [], _ => by rw [laidOutItems, prettyItems]; rfl
  | level, item :: items, rest => by
    rw [laidOutItems, prettyItems, laidOutItems_indented, laidOut_indented]
    rfl

theorem laidOutMembers_indented : ∀ (level : Nat) (members : List (String × Value))
    (rest : List Char),
    laidOutMembers .indented level members rest = prettyMembers level members rest
  | _, [], _ => by rw [laidOutMembers, prettyMembers]; rfl
  | level, member :: members, rest => by
    rw [laidOutMembers, prettyMembers, laidOutMembers_indented, laidOutMember_indented]
    rfl

theorem laidOutMember_indented : ∀ (level : Nat) (member : String × Value) (rest : List Char),
    laidOutMember .indented level member rest = prettyMember level member rest
  | level, (name, value), rest => by
    rw [laidOutMember, prettyMember, laidOut_indented]
    rfl

end

/-- The characters with which a value may begin. -/
def Begins (c : Char) : Prop := c ∈ ['n', 't', 'f', '"', '[', '{', '-'] ∨ c.isDigit = true

/-- The form of a value begins with the character of its kind. -/
theorem laidOut_eq_cons (level : Nat) (value : Value) (rest : List Char) :
    ∃ c tail, value.laidOut layout level rest = c :: tail ∧ Begins c := by
  have hlist : ∀ {c : Char}, c ∈ ['n', 't', 'f', '"', '[', '{', '-'] → Begins c := Or.inl
  cases value with
  | null => exact ⟨_, _, by rw [laidOut], hlist (by decide)⟩
  | bool b => cases b <;> exact ⟨_, _, by rw [laidOut], hlist (by decide)⟩
  | int i =>
    rw [laidOut, integer]
    split
    · exact ⟨'-', i.natAbs.repr.toList ++ rest, by simp, hlist (by decide)⟩
    · rw [Nat.toList_repr]
      cases hd : Nat.toDigits 10 i.natAbs with
      | nil => exact absurd hd Nat.toDigits_ne_nil
      | cons c tail =>
        have hc : c ∈ Nat.toDigits 10 i.natAbs := by rw [hd]; exact List.mem_cons_self
        exact ⟨c, tail ++ rest, rfl, .inr (isDigit_of_mem_toDigits hc)⟩
  | text s => exact ⟨'"', _, by rw [laidOut, quote]; rfl, hlist (by decide)⟩
  | array items => cases items <;> exact ⟨_, _, by rw [laidOut], hlist (by decide)⟩
  | object members => cases members <;> exact ⟨_, _, by rw [laidOut], hlist (by decide)⟩
  | other => exact ⟨_, _, by rw [laidOut], hlist (by decide)⟩

end Value

/-- A character with which a value may begin is no blank. -/
theorem skipBlanks_of_begins {c : Char} (h : Value.Begins c) (tail : List Letter) :
    skipBlanks (some c :: tail) = some c :: tail := by
  have hblank : ¬ (some c = some ' ' ∨ some c = some '\t' ∨ some c = some '\n' ∨
      some c = some '\r') := by
    rintro (hc | hc | hc | hc) <;> obtain rfl := Option.some.inj hc <;>
      rcases h with h | h <;> revert h <;> decide
  rw [skipBlanks, if_neg hblank]

/-- Blanks are passed over. -/
theorem skipBlanks_append {gap : List Char} (h : ∀ c ∈ gap, IsGap c) (text : List Letter) :
    skipBlanks (gap.map some ++ text) = skipBlanks text := by
  induction gap with
  | nil => rfl
  | cons c gap ih =>
    obtain ⟨hc, hgap⟩ := List.forall_mem_cons.mp h
    have hblank : some c = some ' ' ∨ some c = some '\t' ∨ some c = some '\n' ∨
        some c = some '\r' := by simpa only [Option.some.injEq, IsGap] using hc
    rw [List.map_cons, List.cons_append, skipBlanks, if_pos hblank, ih hgap]

variable (layout : Layout)

/-- No blanks stand in front of a value that was written. -/
theorem skipBlanks_laidOut (level : Nat) (value : Value) (rest : List Char) :
    skipBlanks ((value.laidOut layout level rest).map some) =
      (value.laidOut layout level rest).map some := by
  obtain ⟨c, tail, heq, hbegins⟩ := value.laidOut_eq_cons layout level rest
  rw [heq, List.map_cons]
  exact skipBlanks_of_begins hbegins _

/-- What follows an item of an array begins with a blank or a mark. -/
theorem ends_laidOutItems (level : Nat) (items : List Value) (rest : List Char) :
    Ends (Value.laidOutItems layout level items rest) := by
  cases items with
  | nil =>
    rw [Value.laidOutItems]
    exact ends_append (layout.isGap_gap level) (ends_cons (.inr (.inr (.inl rfl))) rest)
  | cons item items =>
    rw [Value.laidOutItems]
    exact ends_cons (.inr (.inl rfl)) _

/-- What follows a member of an object begins with a blank or a mark. -/
theorem ends_laidOutMembers (level : Nat) (members : List (String × Value)) (rest : List Char) :
    Ends (Value.laidOutMembers layout level members rest) := by
  cases members with
  | nil =>
    rw [Value.laidOutMembers]
    exact ends_append (layout.isGap_gap level) (ends_cons (.inr (.inr (.inr rfl))) rest)
  | cons member members =>
    rw [Value.laidOutMembers]
    exact ends_cons (.inr (.inl rfl)) _

end JobLedger.Json
