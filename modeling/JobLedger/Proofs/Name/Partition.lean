import JobLedger.Name.Pattern
import JobLedger.Proofs.Name.Checkpoint
import JobLedger.Proofs.Text.Decimal
import JobLedger.Proofs.Text.Like
import JobLedger.Record.History

/-!
# Partition names tell apart

The name of a partition is read back as what it was made of, whatever colons and digits the step name
holds: neither numeral of a name holds a colon. So a name belongs to exactly one step of one root.
Each name of a step matches the pattern of the step, and a pattern is short enough to be matched. Of
the other texts that are read as a name of the step, those match that have no zero in front of the
root. Whatever wildcards the step name holds, the pattern takes them literally.
-/

namespace JobLedger

open Text

namespace PartitionName

/-- The text of a name in its parts. -/
theorem toList_encode (name : PartitionName) :
    name.encode.toList = ':' :: (name.root.text.toList ++ ':' ::
      (name.stepName.toList ++ ':' :: name.index.toNat.repr.toList)) := by
  simp [encode, stem]

/-- The numeral of an index is read as that index. -/
theorem index?_repr (index : UInt32) : index? index.toNat.repr.toList = some index := by
  rw [index?, decimal?_repr, Option.bind_some, if_pos index.toNat_lt, UInt32.ofNat_toNat]

/-- The text of a name is read back as the name. -/
theorem parse?_encode (name : PartitionName) : parse? name.encode = some name := by
  have hcolon (n : Nat) : ':' ∉ n.repr.toList := not_mem_repr rfl n
  have hroot := cutFirst_append (hcolon name.root.number)
    (name.stepName.toList ++ ':' :: name.index.toNat.repr.toList)
  have hindex := cutLast_append (hcolon name.index.toNat) name.stepName.toList
  rw [← Id.text] at hroot
  simp only [parse?, toList_encode, hroot, hindex, Option.bind_eq_bind, Option.bind_some,
    Id.decimal?_text, index?_repr, String.ofList_toList]

/-- Names with one text are one name. -/
theorem encode_inj {a b : PartitionName} : a.encode = b.encode ↔ a = b := by
  constructor
  · intro h
    have hread := congrArg parse? h
    rw [parse?_encode, parse?_encode] at hread
    exact Option.some.inj hread
  · rintro rfl
    rfl

/-- A partition name is written with a colon in front. -/
theorem isPartitionName_encode (name : PartitionName) : isPartitionName name.encode = true := by
  rw [isPartitionName, toList_encode]
  rfl

/-- A name belongs to the step that it was made for. -/
theorem belongsTo_encode {name : PartitionName} {root : InstanceId} {step : String} :
    belongsTo name.encode root step = true ↔ name.root = root ∧ name.stepName = step := by
  rw [belongsTo, parse?_encode, decide_eq_true_eq]

/-- A name that belongs to a step begins as the names of partitions do. -/
theorem isPartitionName_of_belongsTo {text : String} {root : InstanceId} {step : String}
    (h : belongsTo text root step = true) : isPartitionName text = true := by
  have hparse : parse? text ≠ none := by
    intro hnone
    rw [belongsTo, hnone] at h
    exact nomatch h
  rw [parse?] at hparse
  split at hparse
  · next rest htext => rw [isPartitionName, htext, List.head?_cons, decide_eq_true_eq]
  · exact absurd rfl hparse

theorem toList_stem (root : InstanceId) (step : String) :
    (stem root step).toList = ':' :: (root.text.toList ++ ':' :: (step.toList ++ [':'])) := by
  simp [stem]

theorem toList_pattern (root : InstanceId) (step : String) :
    (pattern root step).toList = Like.escape (stem root step).toList ++ ['%'] := by
  rw [pattern, escapePattern, String.toList_append, String.toList_ofList]
  rfl

/-- A text has a zero in front where names of partitions have the root. -/
def isPadded (text : String) : Bool := [':', '0'].isPrefixOf text.toList

/-- A text is read as a name if it holds a number for the root, the step name and a number for the
index, each behind a colon. -/
theorem parse?_eq_some_iff {text : String} {name : PartitionName} : parse? text = some name ↔
    ∃ number digits, text.toList = ':' :: (number ++ ':' :: (name.stepName.toList ++ ':' :: digits)) ∧
      (decimal? number).bind Id.ofNat? = some name.root ∧ index? digits = some name.index := by
  constructor
  · intro hparse
    rw [parse?] at hparse
    split at hparse
    · next rest htext =>
      simp only [Option.bind_eq_bind, Option.bind_eq_some_iff, Option.some.injEq] at hparse
      obtain ⟨⟨number, behind⟩, hfirst, ⟨step, digits⟩, hlast, root, hroot, index, hindex, rfl⟩ :=
        hparse
      have hrest : rest = number ++ ':' :: behind := (eq_append_of_cutFirst hfirst).1
      have hbehind : behind = step ++ ':' :: digits := (eq_append_of_cutLast hlast).1
      refine ⟨number, digits, ?_, Option.bind_eq_some_iff.mpr hroot, hindex⟩
      rw [htext, hrest, hbehind, String.toList_ofList]
    · exact nomatch hparse
  · rintro ⟨number, digits, htext, hroot, hindex⟩
    obtain ⟨n, hnumber, -⟩ := Option.bind_eq_some_iff.mp hroot
    obtain ⟨i, hdigits, -⟩ := Option.bind_eq_some_iff.mp hindex
    have hcolon : ':' ∉ number := not_mem_of_decimal? rfl hnumber
    have hcolon' : ':' ∉ digits := not_mem_of_decimal? rfl hdigits
    have hfirst := cutFirst_append hcolon (name.stepName.toList ++ ':' :: digits)
    have hlast := cutLast_append hcolon' name.stepName.toList
    simp only [parse?, htext, hfirst, hlast, Option.bind_eq_bind, Option.bind_some, hroot, hindex,
      String.ofList_toList]

/-- A name that belongs to a step holds a number for the root, the step name and an index. -/
theorem eq_append_of_belongsTo {text : String} {root : InstanceId} {step : String}
    (h : belongsTo text root step = true) : ∃ number index,
      text.toList = ':' :: (number ++ ':' :: (step.toList ++ ':' :: index)) ∧
        decimal? number = some root.number := by
  rw [belongsTo] at h
  cases hparse : parse? text with
  | none =>
    rw [hparse] at h
    exact nomatch h
  | some name =>
    rw [hparse, decide_eq_true_eq] at h
    obtain ⟨rfl, rfl⟩ := h
    obtain ⟨number, digits, htext, hroot, -⟩ := parse?_eq_some_iff.mp hparse
    obtain ⟨n, hnumber, hid⟩ := Option.bind_eq_some_iff.mp hroot
    exact ⟨number, digits, htext, Id.ofNat?_eq_some_iff.mp hid ▸ hnumber⟩

/-- The numeral of a root is a digit other than zero, and what follows. -/
theorem text_eq_cons (root : InstanceId) : ∃ digit rest, root.text.toList = digit :: rest ∧
    digit.isDigit = true ∧ digit ≠ '0' := by
  have hdigits : root.text.toList = Nat.toDigits 10 root.number := Nat.toList_repr
  have hzero := head?_toDigits_ne_zero root.pos
  obtain ⟨digit, rest, hcons⟩ :=
    List.exists_cons_of_ne_nil (Nat.toDigits_ne_nil (n := root.number) (b := 10))
  rw [hcons, List.head?_cons, Ne, Option.some.injEq] at hzero
  refine ⟨digit, rest, hdigits.trans hcons, ?_, hzero⟩
  exact Nat.isDigit_of_mem_toDigits (by decide) (by decide) (hcons ▸ List.mem_cons_self)

/-- Behind the colon of a name that begins as those of a step do there is no zero. -/
theorem isPadded_of_stem {text : String} {root : InstanceId} {step : String} {index : List Char}
    (h : text.toList = (stem root step).toList ++ index) : isPadded text = false := by
  obtain ⟨digit, rest, hroot, -, hzero⟩ := text_eq_cons root
  have hne : ('0' == digit) = false := beq_eq_false_iff_ne.mpr hzero.symm
  rw [isPadded, h, toList_stem, hroot, List.cons_append, List.cons_append, List.cons_append,
    List.isPrefixOf_cons_cons, List.isPrefixOf_cons_cons, hne, Bool.false_and, Bool.and_false]

theorem isPadded_encode (name : PartitionName) : isPadded name.encode = false :=
  isPadded_of_stem String.toList_append

/-- Of the names that belong to a step, the pattern loses those with a zero in front of the root, and
no others. -/
theorem matches_pattern_of_belongsTo {text : String} {root : InstanceId} {step : String}
    (h : belongsTo text root step = true) :
    Like.matches? (pattern root step).toList text.toList = !isPadded text := by
  obtain ⟨number, index, htext, hnumber⟩ := eq_append_of_belongsTo h
  obtain ⟨digit, rest, hroot, hdigit, hzero⟩ := text_eq_cons root
  by_cases hhead : number.head? = some '0'
  · -- The pattern has another digit where the text has a zero.
    obtain ⟨more, rfl⟩ := List.head?_eq_some_iff.mp hhead
    have hpadded : isPadded text = true := by rw [isPadded, htext]; rfl
    obtain ⟨hplain, hnul⟩ := Like.plain_of_isDigit hdigit
    rw [hpadded, toList_pattern, toList_stem, hroot, htext, Like.escape, if_neg (by decide),
      List.cons_append, List.cons_append, List.cons_append,
      Like.matches_cons (by decide) (by decide) (by decide), Like.escape, if_neg hplain,
      List.cons_append, Like.matches_cons hplain hnul (by decide),
      Like.sameLetter_digits hdigit (by decide), decide_eq_false hzero, Bool.false_and,
      Bool.and_false, Bool.not_true]
  · -- The number is the numeral of the root, so that the text begins as the pattern does.
    have hnumeral : number = root.text.toList :=
      (eq_toDigits_of_decimal? hnumber hhead).trans Nat.toList_repr.symm
    have hstem : text.toList = (stem root step).toList ++ index := by
      rw [htext, hnumeral, toList_stem]
      simp
    rw [isPadded_of_stem hstem, toList_pattern, hstem, Like.matches_escape_append, Bool.not_false]

/-- The pattern of a step is hardly more than twice as long as the step name. -/
theorem utf8ByteSize_pattern_le (root : InstanceId) (step : String) :
    (pattern root step).utf8ByteSize ≤ 2 * step.utf8ByteSize + 200 := by
  have hescape := Like.utf8ByteSize_escape_le (stem root step).toList
  have hroot := Like.utf8ByteSize_ofList_le root.text.toList
  have hdigits := root.length_text_le
  have hcolon : ":".utf8ByteSize = 1 := by decide
  have hrun : "%".utf8ByteSize = 1 := by decide
  rw [String.ofList_toList] at hescape hroot
  simp only [stem, String.utf8ByteSize_append] at hescape
  rw [pattern, escapePattern, String.utf8ByteSize_append]
  simp only [stem]
  omega

/-- The pattern of a step matches the texts that begin as the names of its partitions do, up to the
case of ASCII letters, and no others: no character of the step name is a wildcard there, and none takes
the one behind it literally. -/
theorem pattern_takes_step_literally {root : InstanceId} {step text : String}
    (hstep : '\x00' ∉ step.toList) (htext : '\x00' ∉ text.toList) :
    Like.matches? (pattern root step).toList text.toList = true ↔
      (stem root step).toList.map Char.toLower <+: text.toList.map Char.toLower := by
  have hroot : '\x00' ∉ root.text.toList := not_mem_repr rfl root.number
  have hstem : '\x00' ∉ (stem root step).toList := by
    rw [toList_stem]
    simp [hroot, hstep]
  rw [toList_pattern]
  exact Like.matches_escape_iff hstem htext

/-- A step name with both wildcards and a backslash matches in capital letters, but not with other
characters in place of the wildcards. -/
theorem pattern_takes_wildcards_literally :
    let root : InstanceId := ⟨1, by decide, by decide⟩
    let step := "50%_\\copy"
    '\x00' ∉ step.toList ∧
      Like.matches? (pattern root step).toList ":1:50%_\\COPY:0".toList = true ∧
      Like.matches? (pattern root step).toList ":1:50ab\\copy:0".toList = false := by
  intro root step
  have hstep : '\x00' ∉ step.toList := by decide +kernel
  refine ⟨hstep, (pattern_takes_step_literally hstep (by decide +kernel)).mpr (by decide +kernel), ?_⟩
  refine Bool.eq_false_iff.mpr fun hmatches => ?_
  have hbegins := (pattern_takes_step_literally hstep (by decide +kernel)).mp hmatches
  exact absurd hbegins (by decide +kernel)

end PartitionName

end JobLedger
