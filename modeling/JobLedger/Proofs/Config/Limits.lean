import JobLedger.Config.Reading
import JobLedger.Proofs.Text.Blank

/-!
# What is known of an accepted configuration

A configuration that is read from a text is within the hard limits. Those of the path are limits of
the path without the white space at its ends, while the database is opened under the path as it is
written: the path and its names may be longer by white space, and a path that neither begins nor
ends with white space is within the limits itself.
-/

namespace JobLedger

open Files Text

/-- Without the white space at its ends, a text has a number of octets between two bounds. -/
def TrimmedBetween (low high : Nat) (text : String) : Prop :=
  ∃ core, Trims text.toList core ∧ low ≤ (String.ofList core).utf8ByteSize ∧
    (String.ofList core).utf8ByteSize ≤ high

/-- A text neither begins nor ends with white space. -/
def IsTrimmed (text : String) : Prop :=
  (∀ c ∈ text.toList.head?, isBlank c = false) ∧ ∀ c ∈ text.toList.getLast?, isBlank c = false

/-- A path has no more octets than a setting may have, and none of its names more than a name may
have. -/
structure PathFits (path : String) : Prop where
  length : path.utf8ByteSize ≤ 4096
  names : ∀ name ∈ segments path, name.utf8ByteSize ≤ 255

/-- A configuration is within the hard limits, as far as white space at the ends of its texts does
not count. -/
structure LedgerConfig.WithinLimits (c : LedgerConfig) : Prop where
  path_notBlank : ∃ char ∈ c.store.path.toList, isBlank char = false
  /-- The path is in white space one that fits. -/
  path_core : ∃ core, Trims c.store.path.toList core ∧ PathFits (String.ofList core)
  /-- The names of the path that is opened are in white space ones that are short enough. -/
  path_names : ∀ name ∈ segments c.store.path, TrimmedBetween 0 255 name
  /-- A path that is not in white space fits itself. -/
  path_fits : IsTrimmed c.store.path → PathFits c.store.path
  busyTimeout : 1 ≤ c.store.busyTimeout.toNat ∧ c.store.busyTimeout.toNat ≤ 600000
  poolSize : 1 ≤ c.store.poolSize.toNat ∧ c.store.poolSize.toNat ≤ 64
  filter : TrimmedBetween 1 256 c.logging.filter

/-! ## Texts without the white space at their ends -/

/-- A text has a length between two bounds, blanks at its ends aside, if its trimmed form has. -/
theorem trimmedBetween_iff {low high : Nat} {text : String} :
    TrimmedBetween low high text ↔
      low ≤ (trimmed text).utf8ByteSize ∧ (trimmed text).utf8ByteSize ≤ high := by
  constructor
  · intro h
    obtain ⟨core, htrims, hlow, hhigh⟩ := h
    rw [trimmed, htrims.trim_eq]
    exact ⟨hlow, hhigh⟩
  · intro h
    exact ⟨_, trims_trim text.toList, h⟩

/-- A text that is not empty takes an octet at least. -/
theorem one_le_utf8ByteSize {text : String} (h : text ≠ "") : 1 ≤ text.utf8ByteSize :=
  Nat.one_le_iff_ne_zero.mpr (mt String.utf8ByteSize_eq_zero_iff.mp h)

/-- A text without white space at its ends is left as it is. -/
theorem IsTrimmed.trimmed_eq {text : String} (h : IsTrimmed text) : trimmed text = text := by
  rw [trimmed, (Trims.self h.1 h.2).trim_eq, String.ofList_toList]

/-- A text is blank if nothing of it is left. -/
theorem exists_notBlank {text : String} (h : trimmed text ≠ "") :
    ∃ c ∈ text.toList, isBlank c = false := by
  have htrims := trims_trim text.toList
  rw [trimmed] at h
  generalize trim text.toList = core at *
  generalize text.toList = chars at *
  cases htrims with
  | intro hlead hfirst hlast htrail =>
    cases core with
    | nil => exact absurd String.ofList_nil h
    | cons c rest =>
      exact ⟨c, List.mem_append_left _ (List.mem_append_right _ List.mem_cons_self), hfirst c rfl⟩

/-- The segments of a path are its parts between slashes. -/
theorem mem_segments_iff {path : String} {name : List Char} :
    String.ofList name ∈ segments path ↔ name ∈ parts '/' path.toList := by
  rw [segments, List.mem_map]
  constructor
  · intro h
    obtain ⟨part, hpart, heq⟩ := h
    rwa [← String.ofList_injective heq]
  · intro h
    exact ⟨name, h, rfl⟩

/-- The names of a path in white space are short if those of the path without it are. -/
theorem trimmedBetween_names {path : String} (h : PathFits (trimmed path)) :
    ∀ name ∈ segments path, TrimmedBetween 0 255 name := by
  intro name hname
  rw [← String.ofList_toList (s := name), mem_segments_iff] at hname
  have htrims := trims_trim path.toList
  rw [trimmed] at h
  generalize trim path.toList = core at *
  generalize path.toList = chars at *
  cases htrims with
  | intro hlead _ _ htrail =>
    obtain ⟨bare, hbare, lead, trail, hblankLead, hblankTrail, hpart⟩ :=
      exists_part_inBlanks (by decide) hlead htrail hname
    have hname := (trims_trim bare).surround hblankLead hblankTrail
    rw [← hpart] at hname
    have hbareName : String.ofList bare ∈ segments (String.ofList core) := by
      rw [mem_segments_iff, String.toList_ofList]
      exact hbare
    exact ⟨_, hname, Nat.zero_le _,
      Nat.le_trans (trims_trim bare).utf8ByteSize_le (h.names _ hbareName)⟩

/-! ## What is checked -/

/-- A path without a long name has segments of at most 255 octets. -/
theorem hasLongName_eq_false_iff {path : String} :
    hasLongName path = false ↔ ∀ name ∈ segments path, name.utf8ByteSize ≤ 255 := by
  rw [hasLongName, List.any_eq_false]
  simp only [decide_eq_true_eq, Nat.not_lt]
  exact Iff.rfl

/-- A store path is accepted if something is left of it when it is trimmed, which is within the
limits of a path. -/
theorem storePathProblem?_eq_none_iff {path : String} :
    storePathProblem? path = none ↔ trimmed path ≠ "" ∧ PathFits (trimmed path) := by
  simp only [storePathProblem?]
  constructor
  · intro h
    split at h
    · exact nomatch h
    next hne =>
    split at h
    · exact nomatch h
    next hlength =>
    split at h
    · exact nomatch h
    next hnames =>
    exact ⟨hne, Nat.le_of_not_lt hlength,
      hasLongName_eq_false_iff.mp (Bool.eq_false_iff.mpr hnames)⟩
  · intro h
    obtain ⟨hne, hlength, hnames⟩ := h
    have hshort : ¬ pathLimit < (trimmed path).utf8ByteSize := Nat.not_lt_of_le hlength
    rw [if_neg hne, if_neg hshort,
      if_neg (Bool.eq_false_iff.mp (hasLongName_eq_false_iff.mpr hnames))]

/-- A word is accepted if it is between one and its limit. -/
theorem word_bounds_iff {word : UInt64} {limit : Nat} :
    ¬ (word = 0 ∨ limit < word.toNat) ↔ 1 ≤ word.toNat ∧ word.toNat ≤ limit := by
  have hzero : word = 0 ↔ word.toNat = 0 := UInt64.toNat_inj.symm
  rw [hzero]
  omega

/-- The settings of a store are accepted if the path, the timeout and the number of readers are
within their limits. -/
theorem StoreSettings.problem?_eq_none_iff {s : StoreSettings} :
    s.problem? = none ↔
      storePathProblem? s.path = none ∧
        (1 ≤ s.busyTimeout.toNat ∧ s.busyTimeout.toNat ≤ busyTimeoutLimit) ∧
        1 ≤ s.poolSize.toNat ∧ s.poolSize.toNat ≤ poolLimit := by
  rw [problem?, ← word_bounds_iff, ← word_bounds_iff]
  cases storePathProblem? s.path with
  | some problem => simp
  | none =>
    dsimp only
    split
    · next hbusy => simp [hbusy]
    · next hbusy =>
      split
      · next hpool => simp [hpool]
      · next hpool => simp [hbusy, hpool]

/-- The settings of the log are accepted if the trimmed filter has between 1 and 256 octets. -/
theorem LogSettings.problem?_eq_none_iff {s : LogSettings} :
    s.problem? = none ↔ TrimmedBetween 1 256 s.filter := by
  rw [trimmedBetween_iff]
  simp only [problem?]
  constructor
  · intro h
    split at h
    · exact nomatch h
    next hne =>
    split at h
    · exact nomatch h
    next hlength =>
    exact ⟨one_le_utf8ByteSize hne, Nat.le_of_not_lt hlength⟩
  · intro h
    obtain ⟨hpos, hlength⟩ := h
    have hne : trimmed s.filter ≠ "" := by
      intro hempty
      rw [hempty] at hpos
      exact absurd hpos (by decide)
    have hshort : ¬ filterLimit < (trimmed s.filter).utf8ByteSize := Nat.not_lt_of_le hlength
    rw [if_neg hne, if_neg hshort]

namespace LedgerConfig

/-- A configuration is accepted exactly if it is read and has no problem. -/
theorem ofText_eq_ok_iff {text : String} {c : LedgerConfig} :
    ofText text = .ok c ↔
      (Toml.read? text).bind ofToml? = some c ∧ c.store.problem? = none ∧
        c.logging.problem? = none := by
  rw [ofText]
  cases (Toml.read? text).bind ofToml? with
  | none => exact ⟨fun h => (nomatch h), fun h => (nomatch h.1)⟩
  | some config =>
    have hproblem : config.problem? = none ↔
        config.store.problem? = none ∧ config.logging.problem? = none := by
      rw [problem?]
      cases config.store.problem? with
      | none => simp
      | some problem => simp
    dsimp only
    rw [validate]
    constructor
    · intro h
      split at h
      · next hnone =>
        obtain rfl := Except.ok.inj h
        exact ⟨rfl, hproblem.mp hnone⟩
      · exact nomatch h
    · intro h
      obtain ⟨hsome, hnone⟩ := h
      obtain rfl := Option.some.inj hsome
      rw [hproblem.mpr hnone]

/-- A configuration that is read from a text is within the hard limits. -/
theorem withinLimits_of_ofText {text : String} {c : LedgerConfig} (h : ofText text = .ok c) :
    c.WithinLimits := by
  obtain ⟨-, hstore, hlogging⟩ := ofText_eq_ok_iff.mp h
  obtain ⟨hpath, hbusy, hpool⟩ := StoreSettings.problem?_eq_none_iff.mp hstore
  obtain ⟨hne, hfits⟩ := storePathProblem?_eq_none_iff.mp hpath
  exact
    { path_notBlank := exists_notBlank hne
      path_core := ⟨_, trims_trim _, hfits⟩
      path_names := trimmedBetween_names hfits
      path_fits := fun htrimmed => htrimmed.trimmed_eq ▸ hfits
      busyTimeout := hbusy
      poolSize := hpool
      filter := LogSettings.problem?_eq_none_iff.mp hlogging }

/-- Settings at the very limits, with a path in white space. -/
theorem withinLimits_atLimits :
    ∃ c, ofText "[store]\npath=' a/b '\nbusy_timeout_ms=600000\nread_pool_size=64\n" = .ok c ∧
      c.WithinLimits := by
  have hread : ofText "[store]\npath=' a/b '\nbusy_timeout_ms=600000\nread_pool_size=64\n" =
      .ok ⟨⟨" a/b ", 600000, .wal, .full, 64⟩, {}⟩ := by
    rw [ofText_eq_ok_iff]
    decide +kernel
  exact ⟨_, hread, withinLimits_of_ofText hread⟩

/-- The path of a database with 250 spaces behind it. -/
def paddedPath : String := "ledger.db" ++ String.ofList (List.replicate 250 ' ')

/-- The padded path is a name with 250 blanks behind it. -/
theorem toList_paddedPath :
    paddedPath.toList = "ledger.db".toList ++ List.replicate 250 ' ' := by
  rw [paddedPath, String.toList_append]
  exact congrArg _ String.toList_ofList

/-- The padded path is accepted and opened as it is, as one name of 259 octets. -/
theorem ofText_paddedPath :
    ofText ("[store]\npath=\"" ++ paddedPath ++ "\"\n") = .ok (ofPath paddedPath) ∧
      segments paddedPath = [paddedPath] ∧ 255 < paddedPath.utf8ByteSize := by
  have hread : (Toml.read? ("[store]\npath=\"" ++ paddedPath ++ "\"\n")).bind ofToml? =
      some (ofPath paddedPath) := by
    rw [Toml.read?, String.toList_append, String.toList_append, toList_paddedPath]
    decide +kernel
  have htrimmed : trimmed paddedPath = "ledger.db" := by
    rw [trimmed, toList_paddedPath]
    decide +kernel
  have hstore : (ofPath paddedPath).store.problem? = none := by
    rw [StoreSettings.problem?_eq_none_iff, ofPath, storePathProblem?, htrimmed]
    decide +kernel
  have hnames : segments paddedPath = [paddedPath] := by
    rw [segments, toList_paddedPath]
    decide +kernel
  have hlong : 255 < paddedPath.utf8ByteSize := by decide +kernel
  exact ⟨ofText_eq_ok_iff.mpr ⟨hread, hstore, by decide⟩, hnames, hlong⟩

end LedgerConfig

end JobLedger
