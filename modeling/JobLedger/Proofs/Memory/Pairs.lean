import JobLedger.Proofs.Memory.InPlace
import JobLedger.Proofs.Keyed
import JobLedger.Proofs.Name.Checkpoint

/-!
# Pairs in the table of checkpoints

The table of checkpoints holds two rows for each step that has restart tokens. It stands for a list
of pairs under different steps, and every call on it is one on that list: since keys tell apart, a
row is found exactly if its pair is there.
-/

namespace JobLedger.Memory

open Text

/-- What restart tokens are kept for: an instance and a step name. -/
abbrev PairKey := InstanceId × String

/-- A pair with what it is kept for. -/
abbrev PairEntry := PairKey × CheckpointPair

namespace PairEntry

/-- The text of the key of one end. -/
def keyText (key : PairKey) (kind : CheckpointKind) : String :=
  (CheckpointKey.ofPair key.1 key.2 kind).encode

/-- Texts of keys are those of one pair and one end only. -/
@[simp] theorem keyText_inj {a b : PairKey} {kind kind' : CheckpointKind} :
    keyText a kind = keyText b kind' ↔ a = b ∧ kind = kind' := by
  simp [keyText]

/-- Comparing the texts of keys compares pairs and ends. -/
theorem keyText_beq (a b : PairKey) (kind kind' : CheckpointKind) :
    (keyText a kind == keyText b kind') = decide (a = b ∧ kind = kind') := by
  rw [Bool.eq_iff_iff, beq_iff_eq, keyText_inj, decide_eq_true_eq]

/-- The two rows of a pair. -/
def rows (entry : PairEntry) : List (String × Option Octets) :=
  [(keyText entry.1 .reader, entry.2.reader), (keyText entry.1 .writer, entry.2.writer)]

end PairEntry

open PairEntry

/-- The table of checkpoints that holds pairs, and nothing else. -/
def pairRows (entries : List PairEntry) : List (String × Option Octets) :=
  entries.flatMap PairEntry.rows

/-- The rows of entries stand one entry behind the other. -/
theorem pairRows_append (first second : List PairEntry) :
    pairRows (first ++ second) = pairRows first ++ pairRows second :=
  List.flatMap_append

/-- A row is found under a key exactly if the pair is there. -/
theorem lookup_pairRows (entries : List PairEntry) (key : PairKey) (kind : CheckpointKind) :
    (pairRows entries).lookup (keyText key kind) =
      (entries.lookup key).map fun pair => pair.token kind := by
  induction entries with
  | nil => rfl
  | cons entry rest ih =>
    have hcons : pairRows (entry :: rest) = entry.rows ++ pairRows rest := rfl
    rw [hcons, PairEntry.rows, List.cons_append, List.cons_append, List.nil_append,
      List.lookup_cons, List.lookup_cons, List.lookup_cons, ih, keyText_beq, keyText_beq]
    by_cases hkey : key = entry.1
    · subst hkey
      cases kind with
      | reader => simp [CheckpointPair.token]
      | writer => simp [CheckpointPair.token]
    · have hne : (key == entry.1) = false := by simpa using hkey
      simp [hkey, hne]

/-- Replaces the pair of a step, where it has one. -/
def replacePair (key : PairKey) (pair : CheckpointPair) (entries : List PairEntry) :
    List PairEntry :=
  changeRow Prod.fst key (fun entry => (entry.1, pair)) entries

/-- The entry of one key is replaced, and the others stay. -/
theorem lookup_replacePair (key other : PairKey) (pair : CheckpointPair)
    (entries : List PairEntry) :
    (replacePair key pair entries).lookup other =
      if other = key then (entries.lookup key).map fun _ => pair else entries.lookup other :=
  lookup_changeRow key other pair entries

/-- The rows of the table with both tokens of a step replaced are those of the pairs with that one
replaced. -/
theorem setToken_pairRows (key : PairKey) (pair : CheckpointPair) (entries : List PairEntry)
    {m : Memory} (h : m.checkpoints = pairRows entries) :
    ((m.setToken (.ofPair key.1 key.2 .reader) pair.reader).setToken
      (.ofPair key.1 key.2 .writer) pair.writer).checkpoints =
        pairRows (replacePair key pair entries) := by
  simp only [setToken, h]
  induction entries generalizing m with
  | nil => rfl
  | cons entry rest ih =>
    have hrest := ih (m := { m with checkpoints := pairRows rest }) rfl
    have hcons : pairRows (entry :: rest) = entry.rows ++ pairRows rest := rfl
    have hreplace : pairRows (replacePair key pair (entry :: rest)) =
        PairEntry.rows (if entry.1 = key then (entry.1, pair) else entry) ++
          pairRows (replacePair key pair rest) := rfl
    rw [hcons, hreplace, List.map_append, List.map_append, hrest]
    refine congrArg (· ++ _) ?_
    by_cases hkey : entry.1 = key
    · subst hkey
      simp [PairEntry.rows, keyText, CheckpointKey.ofPair]
    · have hkeys : ∀ kind kind', keyText entry.1 kind ≠ keyText key kind' := by
        simp [hkey]
      simp only [keyText] at hkeys
      simp [PairEntry.rows, keyText, hkeys, hkey]

/-- The pairs that are left when those of some instances are removed. -/
def dropPairs (goes : InstanceId → Bool) (entries : List PairEntry) : List PairEntry :=
  entries.filter fun entry => !goes entry.1.1

/-- Without the pairs of some instances, those of the others are found. -/
theorem lookup_dropPairs (goes : InstanceId → Bool) (key : PairKey) (entries : List PairEntry) :
    (dropPairs goes entries).lookup key = if goes key.1 then none else entries.lookup key := by
  induction entries with
  | nil => simp [dropPairs]
  | cons entry rest ih =>
    obtain ⟨held, pair⟩ := entry
    simp only [dropPairs, List.filter_cons] at ih ⊢
    by_cases hkey : key = held
    · subst hkey
      by_cases hgoes : goes key.1 = true
      · simpa [hgoes] using ih
      · simp [hgoes]
    · have hne : (key == held) = false := by simpa using hkey
      by_cases hgoes : goes held.1 = true
      · simpa [hgoes, List.lookup_cons, hne] using ih
      · simpa [hgoes, List.lookup_cons, hne] using ih

/-- A row begins with the prefix of one of some instances exactly if it belongs to one. -/
theorem any_isPrefixOf_keyText (ids : List InstanceId) (key : PairKey) (kind : CheckpointKind) :
    (ids.any fun id => (CheckpointKey.instancePrefix id).toList.isPrefixOf
      (keyText key kind).toList) = ids.contains key.1 := by
  rw [Bool.eq_iff_iff, List.any_eq_true, List.contains_iff_mem]
  simp only [keyText, CheckpointKey.isPrefixOf_encode]
  constructor
  · rintro ⟨id, hid, rfl⟩
    exact hid
  · intro hmem
    exact ⟨key.1, hmem, rfl⟩

/-- Removing the rows of some instances removes their pairs. -/
theorem filter_pairRows (ids : List InstanceId) (entries : List PairEntry) :
    ((pairRows entries).filter fun row =>
      !ids.any fun id => (CheckpointKey.instancePrefix id).toList.isPrefixOf row.1.toList) =
        pairRows (dropPairs ids.contains entries) := by
  induction entries with
  | nil => rfl
  | cons entry rest ih =>
    have hcons : pairRows (entry :: rest) = entry.rows ++ pairRows rest := rfl
    rw [hcons, List.filter_append, ih, dropPairs, dropPairs]
    simp only [PairEntry.rows, List.filter_cons, List.filter_nil, any_isPrefixOf_keyText]
    cases ids.contains entry.1.1 with
    | true => rfl
    | false => rfl

/-- The table of checkpoints consists of the pairs in a list, and no two of them are for one step. -/
structure HoldsPairs (rows : List (String × Option Octets)) (entries : List PairEntry) : Prop where
  rows_eq : rows = pairRows entries
  distinct : DistinctKeys Prod.fst entries

namespace HoldsPairs

variable {m : Memory} {entries : List PairEntry} (h : HoldsPairs m.checkpoints entries)

include h

/-- A token is one half of the pair that is found. -/
theorem token? (key : PairKey) (kind : CheckpointKind) :
    m.token? (.ofPair key.1 key.2 kind) = (entries.lookup key).map fun pair => pair.token kind := by
  rw [Memory.token?, h.rows_eq]
  exact lookup_pairRows entries key kind

/-- The tokens of a step are found, and never one of them alone. -/
theorem findPair (id : InstanceId) (step : String) :
    Memory.findPair id step m = .ok (entries.lookup (id, step)) := by
  have hreader := h.token? (id, step) .reader
  have hwriter := h.token? (id, step) .writer
  simp only [Memory.findPair, hreader, hwriter]
  cases entries.lookup (id, step) with
  | none => rfl
  | some pair => rfl

/-- A pair is created where there is none. -/
theorem createPair (id : InstanceId) (step : String) :
    Memory.createPair id step m =
      if (entries.lookup (id, step)).isSome then .error ⟨.alreadyExists, .checkpointPair id step⟩
      else .ok ((), { m with
        checkpoints := pairRows (entries ++ [((id, step), CheckpointPair.empty)]) }) := by
  have hreader := h.token? (id, step) .reader
  have hwriter := h.token? (id, step) .writer
  simp only [Memory.createPair, hreader, hwriter, Option.isSome_map, Bool.or_self]
  rw [pairRows_append, ← h.rows_eq]
  rfl

/-- The tokens of a step are replaced where there are some. -/
theorem updatePair (id : InstanceId) (step : String) (pair : CheckpointPair) :
    Memory.updatePair id step pair m =
      if (entries.lookup (id, step)).isNone then .error ⟨.notFound, .checkpointPair id step⟩
      else .ok ((), { m with checkpoints := pairRows (replacePair (id, step) pair entries) }) := by
  have hreader := h.token? (id, step) .reader
  have hwriter := h.token? (id, step) .writer
  simp only [Memory.updatePair, hreader, hwriter, Option.isNone_map, Bool.or_self]
  rw [← setToken_pairRows (id, step) pair entries h.rows_eq]
  rfl

end HoldsPairs

namespace HoldsPairs

variable {rows : List (String × Option Octets)} {entries : List PairEntry}

/-- No two rows have one key. -/
theorem nodup_keys (h : HoldsPairs rows entries) : (rows.map Prod.fst).Nodup := by
  rw [h.rows_eq, pairRows, List.map_flatMap, List.Nodup, List.pairwise_flatMap]
  constructor
  · intro entry _
    simp [PairEntry.rows]
  · refine h.distinct.imp fun hne => ?_
    simp [PairEntry.rows, hne]

/-- Every row is kept under the key of one end of a step. -/
theorem exists_key (h : HoldsPairs rows entries) {row : String × Option Octets} (hrow : row ∈ rows) :
    ∃ key : CheckpointKey, row.1 = key.encode := by
  rw [h.rows_eq, pairRows, List.mem_flatMap] at hrow
  obtain ⟨entry, -, hrow⟩ := hrow
  simp only [PairEntry.rows, List.mem_cons, List.not_mem_nil, or_false] at hrow
  rcases hrow with rfl | rfl
  · exact ⟨_, rfl⟩
  · exact ⟨_, rfl⟩

end HoldsPairs

/-- A new pair is added as two rows. -/
theorem holdsPairs_append {entries : List PairEntry} {key : PairKey} {pair : CheckpointPair}
    (hdistinct : DistinctKeys Prod.fst entries) (hnew : entries.lookup key = none) :
    HoldsPairs (pairRows (entries ++ [(key, pair)])) (entries ++ [(key, pair)]) := by
  refine ⟨rfl, hdistinct.append ?_⟩
  rw [find?_key_eq_none_iff]
  intro entry hentry
  have hne := (List.lookup_eq_none_iff.mp hnew) entry hentry
  simpa using Ne.symm (by simpa using hne)

/-- A pair is replaced in two rows. -/
theorem holdsPairs_replace {entries : List PairEntry} {key : PairKey} {pair : CheckpointPair}
    (hdistinct : DistinctKeys Prod.fst entries) :
    HoldsPairs (pairRows (replacePair key pair entries)) (replacePair key pair entries) :=
  ⟨rfl, pairwise_changeRow hdistinct fun _ _ => rfl⟩

end JobLedger.Memory
