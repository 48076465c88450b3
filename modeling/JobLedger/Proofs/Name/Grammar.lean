import JobLedger.Proofs.Name.Partition

/-!
# Which texts are read as names

The texts that are read as a checkpoint key are those that the key writes, with any number of zeros
in front; those that are read as a partition name may have zeros in front of both numbers. A text
that writes no key is told what is wrong with it, the first separator that is missing before a
number, and a number before the end of a step.
-/

namespace JobLedger

open Text

namespace Id

variable {entity : Entity}

/-- The texts of an identifier are its numeral with any number of zeros in front. -/
theorem decimal?_eq_some_iff {digits : List Char} {id : Id entity} :
    (decimal? digits).bind ofNat? = some id ↔
      ∃ zeros, digits = List.replicate zeros '0' ++ id.text.toList := by
  have hnumeral : id.text.toList = Nat.toDigits 10 id.number := Nat.toList_repr
  rw [hnumeral, ← decimal?_eq_some_iff_zeros, Option.bind_eq_some_iff]
  constructor
  · rintro ⟨n, hn, hid⟩
    rw [hn, ofNat?_eq_some_iff.mp hid]
  · intro h
    exact ⟨id.number, h, ofNat?_number id⟩

end Id

/-! ## Checkpoint keys -/

/-- A label is read as the end that it is the label of. -/
theorem CheckpointKind.label_of_ofLabel? {label : String} {kind : CheckpointKind}
    (h : ofLabel? label = some kind) : kind.label = label := by
  have hfound := List.find?_some h
  exact of_decide_eq_true hfound

namespace CheckpointKey

/-- Digits and nothing else, which write a number that an instance can have. -/
def IsInstanceNumber (text : List Char) : Prop :=
  (∀ c ∈ text, c.isDigit = true) ∧
    0 < Nat.ofDigitChars 10 text 0 ∧ Nat.ofDigitChars 10 text 0 < UInt64.size

/-- A text is that of a key, with any number of zeros in front. -/
def IsWrittenBy (key : CheckpointKey) (text : String) : Prop :=
  ∃ zeros, text.toList = List.replicate zeros '0' ++ key.encode.toList

/-- What a text is read as: the key that it writes, or what is wrong with it. -/
inductive Reads (text : String) : Except CheckpointKeyFault CheckpointKey → Prop where
  | key {key : CheckpointKey} (written : key.IsWrittenBy text) : Reads text (.ok key)
  /-- There are fewer than two commas. -/
  | missingSeparator (few : text.toList.count ',' < 2) :
    Reads text (.error (.missingSeparator text))
  /-- There are two commas, and no number of an instance before the first of them. -/
  | invalidInstance {first rest : List Char} (parted : text.toList = first ++ ',' :: rest)
    (isFirst : ',' ∉ first) (another : ',' ∈ rest) (noNumber : ¬ IsInstanceNumber first) :
    Reads text (.error (.invalidInstance (String.ofList first)))
  /-- There are two commas and a number of an instance before the first of them, and yet the text
  is not that of a key. -/
  | invalidKind {first step last : List Char}
    (parted : text.toList = first ++ ',' :: (step ++ ',' :: last)) (isFirst : ',' ∉ first)
    (isLast : ',' ∉ last) (number : IsInstanceNumber first)
    (unwritten : ∀ key : CheckpointKey, ¬ key.IsWrittenBy text) :
    Reads text (.error (.invalidKind (String.ofList last)))

/-- A text is the number of an instance if it is read as one. -/
theorem isInstanceNumber_iff {text : List Char} :
    IsInstanceNumber text ↔ ∃ id : InstanceId, (decimal? text).bind Id.ofNat? = some id := by
  constructor
  · rintro ⟨hdigits, hpos, hlt⟩
    have hne : text ≠ [] := by
      rintro rfl
      exact absurd hpos (Nat.lt_irrefl 0)
    have hread : decimal? text = some (Nat.ofDigitChars 10 text 0) :=
      decimal?_eq_some_iff.mpr ⟨hne, hdigits, rfl⟩
    refine ⟨⟨Nat.ofDigitChars 10 text 0, hpos, hlt⟩, ?_⟩
    rw [hread, Option.bind_some]
    exact Id.ofNat?_eq_some_iff.mpr rfl
  · rintro ⟨id, hid⟩
    obtain ⟨n, hn, hnumber⟩ := Option.bind_eq_some_iff.mp hid
    obtain ⟨-, hdigits, hvalue⟩ := decimal?_eq_some_iff.mp hn
    have hsame : id.number = n := Id.ofNat?_eq_some_iff.mp hnumber
    rw [IsInstanceNumber, hvalue, ← hsame]
    exact ⟨hdigits, id.pos, id.lt⟩

/-- A text with fewer than two commas has no three parts. -/
theorem parse_of_few {text : String} (few : text.toList.count ',' < 2) :
    parse text = .error (.missingSeparator text) := by
  unfold parse
  cases hfirst : cutFirst ',' text.toList with
  | none => rfl
  | some parts =>
    obtain ⟨first, rest⟩ := parts
    have hrest : ',' ∉ rest := by
      intro hmem
      have hcount : 0 < rest.count ',' := List.count_pos_iff.mpr hmem
      rw [(eq_append_of_cutFirst hfirst).1, List.count_append, List.count_cons_self] at few
      omega
    simp only [cutLast_eq_none hrest]

/-- A text with two commas or more has three parts, at the first comma and at the last. -/
theorem exists_parts {text : String} (enough : 2 ≤ text.toList.count ',') :
    ∃ first step last, text.toList = first ++ ',' :: (step ++ ',' :: last) ∧
      ',' ∉ first ∧ ',' ∉ last := by
  have hmem : ',' ∈ text.toList := List.count_pos_iff.mp (by omega)
  obtain ⟨first, rest, hparted, hfirst⟩ := List.eq_append_cons_of_mem hmem
  rw [hparted, List.count_append, List.count_cons_self, List.count_eq_zero.mpr hfirst] at enough
  have hrest : ',' ∈ rest := List.count_pos_iff.mp (by omega)
  obtain ⟨step, last, hcut⟩ := exists_cutLast hrest
  obtain ⟨hrest, hlast⟩ := eq_append_of_cutLast hcut
  exact ⟨first, step, last, hrest ▸ hparted, hfirst, hlast⟩

section Parts

variable {text : String} {first step last : List Char}
  (parted : text.toList = first ++ ',' :: (step ++ ',' :: last)) (isFirst : ',' ∉ first)
  (isLast : ',' ∉ last)

include parted isFirst isLast

/-- Of a text in three parts the first is read as a number, and then the last one as an end of a
step. -/
theorem parse_of_parts : parse text =
    ((decimal? first).bind Id.ofNat?).elim (.error (.invalidInstance (String.ofList first)))
      fun id => (CheckpointKind.ofLabel? (String.ofList last)).elim
        (.error (.invalidKind (String.ofList last))) fun kind => .ok ⟨id, String.ofList step, kind⟩ := by
  have hfirst := cutFirst_append isFirst (step ++ ',' :: last)
  have hlast := cutLast_append isLast step
  simp only [parse, parted, hfirst, hlast]
  cases (decimal? first).bind Id.ofNat? with
  | none => rfl
  | some id => cases CheckpointKind.ofLabel? (String.ofList last) <;> rfl

/-- A key that a text in three parts writes has the numeral of its instance, with zeros in front, its
step name and the label of its kind as these parts. -/
theorem isWrittenBy_iff_parts {key : CheckpointKey} : key.IsWrittenBy text ↔
    (∃ zeros, first = List.replicate zeros '0' ++ key.instanceId.text.toList) ∧
      step = key.stepName.toList ∧ last = key.kind.label.toList := by
  constructor
  · rintro ⟨zeros, hwritten⟩
    have hnumeral : ',' ∉ List.replicate zeros '0' ++ key.instanceId.text.toList := by
      rw [Id.text, Nat.toList_repr]
      exact not_mem_of_decimal? rfl (decimal?_eq_some_iff_zeros.mpr ⟨zeros, rfl⟩)
    -- Both sides of the equation are cut at the first comma, and what is behind it at the last one.
    rw [parted, toList_encode, ← List.append_assoc] at hwritten
    have hcut := congrArg (cutFirst ',') hwritten
    rw [cutFirst_append isFirst, cutFirst_append hnumeral, Option.some.injEq, Prod.mk.injEq] at hcut
    have hbehind := congrArg (cutLast ',') hcut.2
    rw [cutLast_append isLast, cutLast_append key.kind.comma_not_mem_label, Option.some.injEq,
      Prod.mk.injEq] at hbehind
    exact ⟨⟨zeros, hcut.1⟩, hbehind.1, hbehind.2⟩
  · rintro ⟨⟨zeros, rfl⟩, rfl, rfl⟩
    refine ⟨zeros, ?_⟩
    rw [parted, toList_encode, List.append_assoc]

end Parts

/-- A text that a key writes has two commas. -/
theorem IsWrittenBy.enough {key : CheckpointKey} {text : String} (h : key.IsWrittenBy text) :
    2 ≤ text.toList.count ',' := by
  obtain ⟨zeros, hwritten⟩ := h
  rw [hwritten, toList_encode]
  simp only [List.count_append, List.count_cons_self]
  omega

/-- A text that a key writes is read as the key. -/
theorem IsWrittenBy.parse_eq {key : CheckpointKey} {text : String} (h : key.IsWrittenBy text) :
    parse text = .ok key := by
  obtain ⟨first, step, last, parted, isFirst, isLast⟩ := exists_parts h.enough
  obtain ⟨hnumber, rfl, rfl⟩ := (isWrittenBy_iff_parts parted isFirst isLast).mp h
  have hid := Id.decimal?_eq_some_iff.mpr hnumber
  rw [parse_of_parts parted isFirst isLast, hid, Option.elim_some, String.ofList_toList,
    CheckpointKind.ofLabel?_label, Option.elim_some, String.ofList_toList]

/-- What a text in three parts is read as, by the number in the first part. -/
theorem reads_of_parts {text : String} {first step last : List Char}
    (parted : text.toList = first ++ ',' :: (step ++ ',' :: last)) (isFirst : ',' ∉ first)
    (isLast : ',' ∉ last) : Reads text (parse text) := by
  rw [parse_of_parts parted isFirst isLast]
  cases hnumber : (decimal? first).bind Id.ofNat? with
  | none =>
    have hno : ¬ IsInstanceNumber first := by
      intro h
      obtain ⟨id, hid⟩ := isInstanceNumber_iff.mp h
      exact nomatch hnumber.symm.trans hid
    exact .invalidInstance parted isFirst (List.mem_append_right _ List.mem_cons_self) hno
  | some id =>
    cases hkind : CheckpointKind.ofLabel? (String.ofList last) with
    | none =>
      -- A key that the text wrote would have been read.
      refine .invalidKind parted isFirst isLast (isInstanceNumber_iff.mpr ⟨id, hnumber⟩) ?_
      intro key hwritten
      have hparse := hwritten.parse_eq
      rw [parse_of_parts parted isFirst isLast, hnumber, Option.elim_some, hkind] at hparse
      exact nomatch hparse
    | some kind =>
      have hlast : last = kind.label.toList := by
        rw [CheckpointKind.label_of_ofLabel? hkind, String.toList_ofList]
      have hstep : step = (String.ofList step).toList := String.toList_ofList.symm
      exact .key ((isWrittenBy_iff_parts parted isFirst isLast).mpr
        ⟨Id.decimal?_eq_some_iff.mp hnumber, hstep, hlast⟩)

/-- Every text is read as it should be. -/
theorem reads_parse (text : String) : Reads text (parse text) := by
  by_cases few : text.toList.count ',' < 2
  · rw [parse_of_few few]
    exact .missingSeparator few
  · obtain ⟨first, step, last, parted, isFirst, isLast⟩ := exists_parts (Nat.not_lt.mp few)
    exact reads_of_parts parted isFirst isLast

/-- A text can be read in one way only. -/
theorem Reads.parse_eq {text : String} {result : Except CheckpointKeyFault CheckpointKey}
    (h : Reads text result) : parse text = result := by
  cases h with
  | key written => exact written.parse_eq
  | missingSeparator few => exact parse_of_few few
  | @invalidInstance first rest parted isFirst another noNumber =>
    obtain ⟨step, last, hcut⟩ := exists_cutLast another
    obtain ⟨rfl, isLast⟩ := eq_append_of_cutLast hcut
    rw [parse_of_parts parted isFirst isLast]
    cases hnumber : (decimal? first).bind Id.ofNat? with
    | none => rfl
    | some id => exact absurd (isInstanceNumber_iff.mpr ⟨id, hnumber⟩) noNumber
  | @invalidKind first step last parted isFirst isLast number unwritten =>
    obtain ⟨id, hid⟩ := isInstanceNumber_iff.mp number
    have hreads := reads_of_parts parted isFirst isLast
    rw [parse_of_parts parted isFirst isLast, hid, Option.elim_some] at hreads ⊢
    cases hkind : CheckpointKind.ofLabel? (String.ofList last) with
    | none => rfl
    | some kind =>
      rw [hkind] at hreads
      cases hreads with
      | key written => exact absurd written (unwritten _)

/-- The text of a key is read back as the key, so that different keys have different texts, and every
text is read by the grammar of keys: as the key that it writes, or with the fault that it has. -/
theorem reads_keys_exactly :
    (∀ key : CheckpointKey, parse key.encode = .ok key) ∧ Function.Injective encode ∧
      ∀ (text : String) (result : Except CheckpointKeyFault CheckpointKey),
        parse text = result ↔ Reads text result := by
  refine ⟨parse_encode, encode_injective, fun text result => ⟨?_, Reads.parse_eq⟩⟩
  rintro rfl
  exact reads_parse text

end CheckpointKey

/-! ## Partition names -/

namespace PartitionName

/-- A text is that of a name, with any number of zeros in front of the root and of the index. -/
def IsWrittenBy (name : PartitionName) (text : String) : Prop :=
  ∃ rootZeros indexZeros, text.toList =
    ':' :: (List.replicate rootZeros '0' ++ name.root.text.toList ++
      ':' :: (name.stepName.toList ++
        ':' :: (List.replicate indexZeros '0' ++ name.index.toNat.repr.toList)))

/-- The texts of an index are its numeral with any number of zeros in front. -/
theorem index?_eq_some_iff {digits : List Char} {index : UInt32} : index? digits = some index ↔
    ∃ zeros, digits = List.replicate zeros '0' ++ index.toNat.repr.toList := by
  rw [Nat.toList_repr, ← decimal?_eq_some_iff_zeros, index?, Option.bind_eq_some_iff]
  constructor
  · rintro ⟨n, hn, hindex⟩
    by_cases hlt : n < UInt32.size
    · rw [if_pos hlt] at hindex
      rw [hn, ← Option.some.inj hindex, UInt32.toNat_ofNat_of_lt' hlt]
    · rw [if_neg hlt] at hindex
      cases hindex
  · intro h
    exact ⟨index.toNat, h, by rw [if_pos index.toNat_lt, UInt32.ofNat_toNat]⟩

/-- A text is parsed as the partition name that it is written by. -/
theorem parse?_eq_some_iff_isWrittenBy {text : String} {name : PartitionName} :
    parse? text = some name ↔ name.IsWrittenBy text := by
  rw [parse?_eq_some_iff]
  constructor
  · rintro ⟨number, digits, htext, hroot, hindex⟩
    obtain ⟨rootZeros, rfl⟩ := Id.decimal?_eq_some_iff.mp hroot
    obtain ⟨indexZeros, rfl⟩ := index?_eq_some_iff.mp hindex
    exact ⟨rootZeros, indexZeros, htext⟩
  · rintro ⟨rootZeros, indexZeros, htext⟩
    exact ⟨_, _, htext, Id.decimal?_eq_some_iff.mpr ⟨rootZeros, rfl⟩,
      index?_eq_some_iff.mpr ⟨indexZeros, rfl⟩⟩

/-- A text that a name writes begins with a colon, so that an instance of that name is taken for a
partition. -/
theorem IsWrittenBy.head?_eq {name : PartitionName} {text : String} (h : name.IsWrittenBy text) :
    text.toList.head? = some ':' := by
  obtain ⟨rootZeros, indexZeros, htext⟩ := h
  rw [htext, List.head?_cons]

/-- The text of a name is read back as the name, so that different names have different texts. The
texts that are read as a name are those that it writes, and whoever has one of them for a name is
taken for a partition. -/
theorem reads_names_exactly :
    (∀ name : PartitionName, parse? name.encode = some name) ∧ Function.Injective encode ∧
      ∀ (text : String) (name : PartitionName),
        (parse? text = some name ↔ name.IsWrittenBy text) ∧
        (name.IsWrittenBy text → text.toList.head? = some ':' ∧
          ∀ i : JobInstance, i.name = text → i.isPartition = true) := by
  refine ⟨parse?_encode, fun a b h => encode_inj.mp h, fun text name => ?_⟩
  refine ⟨parse?_eq_some_iff_isWrittenBy, fun hwritten => ⟨hwritten.head?_eq, ?_⟩⟩
  rintro i rfl
  rw [JobInstance.isPartition, isPartitionName, hwritten.head?_eq]
  rfl

/-- A name with zeros in front of both numbers, for a step whose name looks like that of a partition. -/
theorem reads_names_exactly_padded :
    let name : PartitionName := ⟨⟨1, by decide, by decide⟩, "a:0", 2⟩
    name.IsWrittenBy ":01:a:0:002" ∧ parse? ":01:a:0:002" = some name ∧
      (⟨⟨7, by decide, by decide⟩, ":01:a:0:002", "nightly", none⟩ : JobInstance).isPartition =
        true := by
  intro name
  have hwritten : name.IsWrittenBy ":01:a:0:002" := ⟨1, 2, by decide +kernel⟩
  obtain ⟨hparse, hcolon⟩ := reads_names_exactly.2.2 ":01:a:0:002" name
  exact ⟨hwritten, hparse.mpr hwritten, (hcolon hwritten).2 _ rfl⟩

end PartitionName

end JobLedger
