import JobLedger.Name.Checkpoint

/-!
# Checkpoint keys tell apart

The text of a key is read back as the key, so that different keys have different texts, whatever
commas and digits their step names hold. An instance owns exactly the keys that begin with its
prefix: the first comma of a key ends the instance, and a numeral holds none.
-/

namespace JobLedger

open Text

namespace Id

variable {entity : Entity}

/-- The numeral of an identifier is read back. -/
theorem decimal?_text (id : Id entity) : (decimal? id.text.toList).bind ofNat? = some id := by
  rw [text, decimal?_repr, Option.bind_some, ofNat?_number]

/-- Identifiers with the same numeral are the same. -/
theorem toList_text_inj {a b : Id entity} (h : a.text.toList = b.text.toList) : a = b := by
  have hread : (decimal? a.text.toList).bind ofNat? = some b := by rw [h, decimal?_text]
  rw [decimal?_text] at hread
  exact Option.some.inj hread

/-- The numeral of an identifier has at most twenty digits. -/
theorem length_text_le (id : Id entity) : id.text.toList.length ≤ 20 := by
  rw [text, Nat.toList_repr]
  refine (Nat.length_toDigits_le_iff (by decide) (by decide)).mpr ?_
  have hlt := id.lt
  have hsize : UInt64.size = 18446744073709551616 := rfl
  omega

/-- No comma is in a numeral. -/
theorem comma_not_mem_text (id : Id entity) : ',' ∉ id.text.toList := not_mem_repr rfl id.number

end Id

namespace CheckpointKind

/-- No comma is in the label of an end. -/
theorem comma_not_mem_label (kind : CheckpointKind) : ',' ∉ kind.label.toList := by
  cases kind <;> decide

end CheckpointKind

namespace CheckpointKey

/-- The prefix of an instance is its numeral with a comma behind it. -/
theorem toList_instancePrefix (id : InstanceId) :
    (instancePrefix id).toList = id.text.toList ++ [','] := by
  simp [instancePrefix]

/-- A prefix is seen as a whole where texts end at their first NUL. -/
theorem nul_not_mem_instancePrefix (id : InstanceId) : '\x00' ∉ (instancePrefix id).toList := by
  rw [toList_instancePrefix, List.mem_append, not_or]
  exact ⟨not_mem_repr rfl id.number, by decide⟩

/-- The text of a key in three parts. -/
theorem toList_encode (key : CheckpointKey) :
    key.encode.toList = key.instanceId.text.toList ++ ',' ::
      (key.stepName.toList ++ ',' :: key.kind.label.toList) := by
  simp [encode, instancePrefix]

/-- The text of a key is read back as the key. -/
theorem parse_encode (key : CheckpointKey) : parse key.encode = .ok key := by
  have hid := cutFirst_append key.instanceId.comma_not_mem_text
    (key.stepName.toList ++ ',' :: key.kind.label.toList)
  have hkind := cutLast_append key.kind.comma_not_mem_label key.stepName.toList
  simp only [parse, toList_encode, hid, hkind, Id.decimal?_text, String.ofList_toList,
    CheckpointKind.ofLabel?_label]

/-- Keys with one text are one key. -/
theorem encode_injective : Function.Injective encode := by
  intro a b h
  have hread := congrArg parse h
  rw [parse_encode, parse_encode] at hread
  exact Except.ok.inj hread

/-- Keys with the same text are the same. -/
@[simp] theorem encode_inj {a b : CheckpointKey} : a.encode = b.encode ↔ a = b :=
  encode_injective.eq_iff

/-- The two keys of a step have different texts. -/
theorem reader_ne_writer (id : InstanceId) (step : String) :
    (ofPair id step .reader).encode ≠ (ofPair id step .writer).encode := by
  intro h
  exact nomatch congrArg kind (encode_injective h)

/-- A key begins with the prefix of an instance exactly if it is a key of that instance. -/
theorem isPrefixOf_encode (id : InstanceId) (key : CheckpointKey) :
    (instancePrefix id).toList.isPrefixOf key.encode.toList = true ↔ key.instanceId = id := by
  rw [List.isPrefixOf_iff_prefix, toList_instancePrefix]
  constructor
  · rintro ⟨rest, hrest⟩
    rw [List.append_assoc, List.singleton_append, toList_encode] at hrest
    have hcut := congrArg (cutFirst ',') hrest
    rw [cutFirst_append id.comma_not_mem_text,
      cutFirst_append key.instanceId.comma_not_mem_text] at hcut
    have htext : id.text.toList = key.instanceId.text.toList := by
      simp only [Option.some.injEq, Prod.mk.injEq] at hcut
      exact hcut.1
    exact (Id.toList_text_inj htext).symm
  · rintro rfl
    rw [toList_encode]
    exact ⟨_, by rw [List.append_assoc, List.singleton_append]⟩

/-- Keys are those of one pair and one end only. -/
@[simp] theorem ofPair_inj {a b : InstanceId × String} {kind kind' : CheckpointKind} :
    ofPair a.1 a.2 kind = ofPair b.1 b.2 kind' ↔ a = b ∧ kind = kind' := by
  simp [ofPair, Prod.ext_iff, and_assoc]

end CheckpointKey

end JobLedger
