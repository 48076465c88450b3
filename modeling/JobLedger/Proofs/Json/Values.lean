import JobLedger.Proofs.Json.Layout
import JobLedger.Proofs.Text.Letters

/-!
# Reading values that were written

The form of a value reads back as that value in every layout. Only `other` has no form of its own: it
is written as null. The reader counts its steps; a value needs one for itself and one for each item
or member inside it, which is at most twice the number of characters of its form.
-/

namespace JobLedger.Json

open Text

namespace Value

mutual

/-- Every part of the value has a form of its own. -/
def Plain : Value → Prop
  | other => False
  | array items => PlainItems items
  | object members => PlainMembers members
  | _ => True

/-- Every part of every item has a form of its own. -/
def PlainItems : List Value → Prop
  | [] => True
  | item :: items => item.Plain ∧ PlainItems items

/-- Every part of every member has a form of its own. -/
def PlainMembers : List (String × Value) → Prop
  | [] => True
  | member :: members => PlainMember member ∧ PlainMembers members

/-- Every part of a member has a form of its own. -/
def PlainMember : String × Value → Prop
  | (_, value) => value.Plain

end

mutual

/-- The steps in which a value is read. -/
def steps : Value → Nat
  | array items => itemSteps items + 1
  | object members => memberSteps members + 1
  | _ => 1

/-- The steps in which the items of an array are read. -/
def itemSteps : List Value → Nat
  | [] => 0
  | item :: items => item.steps + itemSteps items + 1

/-- The steps in which the members of an object are read. -/
def memberSteps : List (String × Value) → Nat
  | [] => 0
  | member :: members => oneMemberSteps member + memberSteps members + 1

/-- The steps in which the value of a member is read. -/
def oneMemberSteps : String × Value → Nat
  | (_, value) => value.steps

end

end Value

section Layouts

variable (layout : Layout)

/-- An integer that was written reads back. -/
theorem readValue_int (level : Nat) (i : Int) {rest : List Char} (hends : Ends rest) (fuel : Nat) :
    readValue (fuel + 1) (((Value.int i).laidOut layout level rest).map some) =
      some (.int i, rest.map some) := by
  have hblanks := skipBlanks_laidOut layout level (.int i) rest
  rw [readValue, hblanks, Value.laidOut, integer]
  by_cases hi : i < 0
  · have hne : i.natAbs ≠ 0 := by omega
    have hvalue : -((i.natAbs : Nat) : Int) = i := by omega
    have hread := readMagnitude_toDigits true (fun _ => hne) hends
    rw [if_pos rfl, hvalue] at hread
    rw [if_pos hi, String.toList_append, Nat.toList_repr]
    exact hread
  · have hvalue : ((i.natAbs : Nat) : Int) = i := by omega
    have hread := readMagnitude_toDigits false (n := i.natAbs)
      (fun h => absurd h Bool.false_ne_true) hends
    rw [if_neg Bool.false_ne_true, hvalue] at hread
    rw [if_neg hi, Nat.toList_repr]
    cases hd : Nat.toDigits 10 i.natAbs with
    | nil => exact absurd hd Nat.toDigits_ne_nil
    | cons c tail =>
      have hc : c.isDigit = true :=
        isDigit_of_mem_toDigits (n := i.natAbs) (by rw [hd]; exact List.mem_cons_self)
      rw [hd] at hread
      simp only [List.cons_append, List.map_cons] at hread ⊢
      split <;> first
        | exact hread
        | (rename_i heq; obtain rfl := Option.some.inj (List.cons.inj heq).1; simp at hc)

/-- A string that was written reads back. -/
theorem readValue_text (level : Nat) (s : String) (rest : List Char) (fuel : Nat) :
    readValue (fuel + 1) (((Value.text s).laidOut layout level rest).map some) =
      some (.text s, rest.map some) := by
  obtain ⟨tail, heq, hread⟩ := readString_quote s rest
  rw [readValue, Value.laidOut, heq, List.map_cons, skipBlanks, if_neg (by decide)]
  simp only [hread, Option.map_some, Option.getD_some]

/-- What each of many parts gives, they give together. -/
theorem mapM_map_pure {f : Type → Type} [Monad f] [LawfulMonad f] {α β γ : Type} {k : α → β}
    {g : α → γ} {r : β → f γ} {l : List α} (h : ∀ a ∈ l, r (k a) = pure (g a)) :
    (l.map k).mapM r = pure (l.map g) := by
  induction l with
  | nil => rfl
  | cons a rest ih =>
    rw [List.map_cons, List.mapM_cons, h a List.mem_cons_self, pure_bind,
      ih fun b hb => h b (List.mem_cons_of_mem _ hb), pure_bind]
    rfl

/-- Members with names that are texts make an object. -/
theorem objectOf_named (members : List (String × Value)) :
    objectOf (members.map fun member => (some member.1, member.2)) = .object members := by
  have hmap : (members.map fun member => ((some member.1 : Option String), member.2)).mapM
      (fun member => member.1.map fun name => (name, member.2)) = some (members.map id) :=
    mapM_map_pure fun _ _ => rfl
  rw [objectOf, hmap, List.map_id]

/-- Blanks in front of a value make no difference. -/
theorem readValue_append {gap : List Char} (h : ∀ c ∈ gap, IsGap c) (fuel : Nat)
    (text : List Letter) : readValue fuel (gap.map some ++ text) = readValue fuel text := by
  cases fuel with
  | zero => rfl
  | succ fuel => rw [readValue, readValue, skipBlanks_append h]

/-- Gaps in front of items are skipped. -/
theorem readItems_append {gap : List Char} (h : ∀ c ∈ gap, IsGap c) (fuel : Nat) (seen : List Value)
    (text : List Letter) : readItems fuel seen (gap.map some ++ text) = readItems fuel seen text := by
  cases fuel with
  | zero => rfl
  | succ fuel => rw [readItems, readItems, readValue_append h]

/-- Gaps in front of members are skipped. -/
theorem readMembers_append {gap : List Char} (h : ∀ c ∈ gap, IsGap c) (fuel : Nat)
    (seen : List (Option String × Value)) (text : List Letter) :
    readMembers fuel seen (gap.map some ++ text) = readMembers fuel seen text := by
  cases fuel with
  | zero => rfl
  | succ fuel => rw [readMembers, readMembers, skipBlanks_append h]

/-- The mark that ends the items of a level is found behind the blanks. -/
theorem skipBlanks_ending (level : Nat) {mark : Char} (hmark : mark = ']' ∨ mark = '}')
    (text : List Letter) :
    skipBlanks ((layout.gap level).map some ++ some mark :: text) = some mark :: text := by
  rw [skipBlanks_append (layout.isGap_gap level)]
  rcases hmark with rfl | rfl <;> exact if_neg (by decide)

mutual

/-- A value that was written reads back, with what follows it left over. -/
theorem readValue_laidOut : ∀ (level : Nat) (value : Value) (fuel : Nat) (rest : List Char),
    value.Plain → value.steps ≤ fuel → Ends rest →
      readValue fuel ((value.laidOut layout level rest).map some) = some (value, rest.map some)
  | _, value, 0, _, _, hfuel, _ => by
    cases value <;> simp [Value.steps] at hfuel
  | _, .null, fuel + 1, rest, _, _, _ => by
    simp [readValue, Value.laidOut, skipBlanks, expect?]
  | _, .bool true, fuel + 1, rest, _, _, _ => by
    simp [readValue, Value.laidOut, skipBlanks, expect?]
  | _, .bool false, fuel + 1, rest, _, _, _ => by
    simp [readValue, Value.laidOut, skipBlanks, expect?]
  | level, .int i, fuel + 1, rest, _, _, hends => readValue_int layout level i hends fuel
  | level, .text s, fuel + 1, rest, _, _, _ => readValue_text layout level s rest fuel
  | _, .other, _ + 1, _, hplain, _, _ => by simp [Value.Plain] at hplain
  | _, .array [], fuel + 1, rest, _, _, _ => by
    simp [readValue, Value.laidOut, skipBlanks]
  | level, .array (item :: items), fuel + 1, rest, hplain, hfuel, _ => by
    rw [Value.Plain] at hplain
    rw [Value.steps] at hfuel
    have hitems := readItems_laidOut level item items fuel rest [] hplain (by omega)
    let behind := Value.laidOutItems layout level items rest
    obtain ⟨c, tail, heq, hbegins⟩ := item.laidOut_eq_cons layout (level + 1) behind
    have hblanks := skipBlanks_laidOut layout (level + 1) item behind
    -- The array is not taken for an empty one.
    have hclose : c ≠ ']' := by
      rintro rfl
      rcases hbegins with h | h <;> revert h <;> decide
    rw [readValue, Value.laidOut, List.map_cons, skipBlanks, if_neg (by decide)]
    rw [heq, List.map_cons] at hblanks hitems
    simp only [List.map_append, skipBlanks_append (layout.isGap_gap (level + 1)), behind, heq,
      List.map_cons, hblanks]
    simpa [hclose] using hitems
  | _, .object [], fuel + 1, rest, _, _, _ => by
    simp [readValue, Value.laidOut, skipBlanks]
  | level, .object (member :: members), fuel + 1, rest, hplain, hfuel, _ => by
    rw [Value.Plain] at hplain
    rw [Value.steps] at hfuel
    have hmembers := readMembers_laidOut level member members fuel rest [] hplain (by omega)
    obtain ⟨name, value⟩ := member
    rw [readValue, Value.laidOut, List.map_cons, skipBlanks, if_neg (by decide)]
    simp only [List.map_append, skipBlanks_append (layout.isGap_gap (level + 1)),
      Value.laidOutMember, quote, List.cons_append, List.map_cons] at hmembers ⊢
    simpa [skipBlanks] using hmembers

/-- The items of an array that was written read back behind those already read. -/
theorem readItems_laidOut : ∀ (level : Nat) (item : Value) (items : List Value) (fuel : Nat)
    (rest : List Char) (seen : List Value), Value.PlainItems (item :: items) →
      Value.itemSteps (item :: items) ≤ fuel →
        readItems fuel seen ((item.laidOut layout (level + 1)
            (Value.laidOutItems layout level items rest)).map some) =
          some (.array (seen.reverse ++ item :: items), rest.map some)
  | _, _, _, 0, _, _, _, hfuel => by simp [Value.itemSteps] at hfuel
  | level, item, items, fuel + 1, rest, seen, hplain, hfuel => by
    rw [Value.PlainItems] at hplain
    rw [Value.itemSteps] at hfuel
    have hitem := readValue_laidOut (level + 1) item fuel (Value.laidOutItems layout level items rest)
      hplain.1 (by omega) (ends_laidOutItems layout level items rest)
    rw [readItems, hitem]
    cases items with
    | nil =>
      rw [Value.laidOutItems]
      simp [skipBlanks_ending layout level (.inl rfl)]
    | cons next items =>
      have hnext := readItems_laidOut level next items fuel rest (item :: seen) hplain.2 (by omega)
      rw [Value.laidOutItems]
      simpa [skipBlanks, readItems_append (layout.isGap_gap (level + 1))] using hnext

/-- The members of an object that was written read back behind those already read. -/
theorem readMembers_laidOut : ∀ (level : Nat) (member : String × Value)
    (members : List (String × Value)) (fuel : Nat) (rest : List Char)
    (seen : List (String × Value)), Value.PlainMembers (member :: members) →
      Value.memberSteps (member :: members) ≤ fuel →
        readMembers fuel (seen.map fun member => (some member.1, member.2))
            ((Value.laidOutMember layout (level + 1) member
              (Value.laidOutMembers layout level members rest)).map some) =
          some (.object (seen.reverse ++ member :: members), rest.map some)
  | _, _, _, 0, _, _, _, hfuel => by simp [Value.memberSteps] at hfuel
  | level, (name, value), members, fuel + 1, rest, seen, hplain, hfuel => by
    rw [Value.PlainMembers, Value.PlainMember] at hplain
    rw [Value.memberSteps, Value.oneMemberSteps] at hfuel
    let behind := Value.laidOutMembers layout level members rest
    have hvalue := readValue_laidOut (level + 1) value fuel behind hplain.1 (by omega)
      (ends_laidOutMembers layout level members rest)
    rw [← readValue_append layout.isGap_space, ← List.map_append] at hvalue
    obtain ⟨tail, heq, hname⟩ := readString_quote name
      (':' :: (layout.space ++ value.laidOut layout (level + 1) behind))
    rw [readMembers, Value.laidOutMember, heq, List.map_cons, skipBlanks, if_neg (by decide)]
    simp only [hname, List.map_cons, skipBlanks, Option.some.injEq, Char.reduceEq, or_self,
      if_false, hvalue, behind]
    cases members with
    | nil =>
      have hobject := objectOf_named (seen.reverse ++ [(name, value)])
      rw [Value.laidOutMembers]
      simpa [skipBlanks_ending layout level (.inr rfl)] using hobject
    | cons next members =>
      have hnext := readMembers_laidOut level next members fuel rest ((name, value) :: seen)
        hplain.2 (by omega)
      rw [Value.laidOutMembers]
      simpa [skipBlanks, readMembers_append (layout.isGap_gap (level + 1))] using hnext

end

mutual

/-- A value is read in at most twice as many steps as it has characters. -/
theorem steps_le_length : ∀ (level : Nat) (value : Value) (rest : List Char),
    value.steps + 1 + 2 * rest.length ≤ 2 * (value.laidOut layout level rest).length
  | _, .null, rest | _, .bool true, rest | _, .bool false, rest | _, .other, rest
  | _, .array [], rest | _, .object [], rest => by
    simp only [Value.steps, Value.itemSteps, Value.memberSteps, Value.laidOut, List.length_cons]
    omega
  | _, .int i, rest => by
    have hdigits : 0 < (integer i).toList.length := by
      unfold integer
      split
      · simp
      · rw [Nat.toList_repr]; exact Nat.length_toDigits_pos
    simp only [Value.steps, Value.laidOut, List.length_append]
    omega
  | _, .text s, rest => by
    simp only [Value.steps, Value.laidOut, quote, List.cons_append, List.length_cons,
      List.length_append, List.length_nil]
    omega
  | level, .array (item :: items), rest => by
    have hitem := steps_le_length (level + 1) item (Value.laidOutItems layout level items rest)
    have hitems := itemSteps_le_length level items rest
    simp only [Value.steps, Value.itemSteps, Value.laidOut, List.length_cons, List.length_append]
    omega
  | level, .object (member :: members), rest => by
    have hmember := oneMemberSteps_le_length (level + 1) member
      (Value.laidOutMembers layout level members rest)
    have hmembers := memberSteps_le_length level members rest
    simp only [Value.steps, Value.memberSteps, Value.laidOut, List.length_cons, List.length_append]
    omega

theorem itemSteps_le_length : ∀ (level : Nat) (items : List Value) (rest : List Char),
    Value.itemSteps items + 2 + 2 * rest.length ≤
      2 * (Value.laidOutItems layout level items rest).length
  | _, [], rest => by
    simp only [Value.itemSteps, Value.laidOutItems, List.length_cons, List.length_append]
    omega
  | level, item :: items, rest => by
    have hitem := steps_le_length (level + 1) item (Value.laidOutItems layout level items rest)
    have hitems := itemSteps_le_length level items rest
    simp only [Value.itemSteps, Value.laidOutItems, List.length_cons, List.length_append]
    omega

theorem memberSteps_le_length : ∀ (level : Nat) (members : List (String × Value))
    (rest : List Char), Value.memberSteps members + 2 + 2 * rest.length ≤
      2 * (Value.laidOutMembers layout level members rest).length
  | _, [], rest => by
    simp only [Value.memberSteps, Value.laidOutMembers, List.length_cons, List.length_append]
    omega
  | level, member :: members, rest => by
    have hmember := oneMemberSteps_le_length (level + 1) member
      (Value.laidOutMembers layout level members rest)
    have hmembers := memberSteps_le_length level members rest
    simp only [Value.memberSteps, Value.laidOutMembers, List.length_cons, List.length_append]
    omega

theorem oneMemberSteps_le_length : ∀ (level : Nat) (member : String × Value) (rest : List Char),
    Value.oneMemberSteps member + 1 + 2 * rest.length ≤
      2 * (Value.laidOutMember layout level member rest).length
  | level, (name, value), rest => by
    have hvalue := steps_le_length level value rest
    simp only [Value.oneMemberSteps, Value.laidOutMember, quote, List.cons_append,
      List.length_cons, List.length_append]
    omega

end

/-- A value that was written in some layout, with blanks behind it, reads back from its octets. -/
theorem read?_octets_laidOut {value : Value} (hplain : value.Plain) {gap : List Char}
    (hgap : ∀ c ∈ gap, IsGap c) : read? (octets (value.laidOut layout 0 gap)) = some value := by
  have hsteps := steps_le_length layout 0 value gap
  have hends : Ends gap := by
    rw [← List.append_nil gap]
    exact ends_append hgap ends_nil
  have hread := readValue_laidOut layout 0 value (2 * (value.laidOut layout 0 gap).length + 2) gap
    hplain (by omega) hends
  have hrest := skipBlanks_append hgap []
  rw [List.append_nil] at hrest
  rw [read?, letters_octets, ofLetters?, List.length_map, hread]
  dsimp only
  rw [hrest]
  rfl

end Layouts

/-- A value that was written reads back from its octets. -/
theorem read?_octets {value : Value} (hplain : value.Plain) :
    read? (octets (value.renderOnto [])) = some value := by
  rw [← Value.laidOut_compact 0]
  exact read?_octets_laidOut .compact hplain fun _ hc => absurd hc List.not_mem_nil

/-- A value that was written for reading, in lines of its own, reads back from its octets. -/
theorem read?_octets_pretty {value : Value} (hplain : value.Plain) :
    read? (octets (value.pretty ++ "\n").toList) = some value := by
  have hgap : ∀ c ∈ ['\n'], IsGap c := fun c hc => .inr (.inr (.inl (List.mem_singleton.mp hc)))
  have htext : (value.pretty ++ "\n").toList = value.laidOut .indented 0 ['\n'] := by
    rw [String.toList_append, Value.pretty, String.toList_ofList, ← Value.laidOut_indented,
      Value.laidOut_append]
    rfl
  rw [htext]
  exact read?_octets_laidOut .indented hplain hgap

end JobLedger.Json
