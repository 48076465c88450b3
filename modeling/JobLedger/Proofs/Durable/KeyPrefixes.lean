import JobLedger.Durable.History
import JobLedger.Proofs.Name.Checkpoint
import JobLedger.Proofs.Text.Like

/-!
# Keys under a prefix

The ledger in memory asks for the keys that begin with the prefix of an instance. The database takes
as many characters of each key as the prefix has and compares these; it sees a key only as far as its
first NUL, which a step name may hold. A prefix holds no NUL, so that both find the same texts. Among
the keys these are those of the instance: the comma behind a numeral keeps a longer numeral apart.
-/

namespace JobLedger

open Text

namespace Text

/-- Whether a text begins with one that holds no NUL is seen before its first NUL. -/
theorem prefix_beforeNul_iff {head : List Char} (h : '\x00' ∉ head) {text : List Char} :
    head <+: Like.beforeNul text ↔ head <+: text := by
  constructor
  · intro hseen
    exact hseen.trans (List.takeWhile_prefix _)
  · rintro ⟨rest, rfl⟩
    rw [Like.beforeNul_append h]
    exact List.prefix_append head _

/-- As many characters of a text as a head has are the head if and only if the text begins with it. -/
theorem window_eq_iff_prefix {head : List Char} (h : '\x00' ∉ head) {text : List Char} :
    window 1 (visibleLength head) text = head ↔ head <+: text := by
  rw [window_one, visibleLength, Like.beforeNul_of_not_mem h, eq_comm, ← List.prefix_iff_eq_take,
    prefix_beforeNul_iff h]

end Text

/-- A text in a key cell begins with a head in the database as it does in memory. -/
theorem Database.beginsWith_text {head : String} (h : '\x00' ∉ head.toList) (text : String) :
    beginsWith head (.text text) = head.toList.isPrefixOf text.toList := by
  rw [Bool.eq_iff_iff, List.isPrefixOf_iff_prefix, ← window_eq_iff_prefix h]
  exact decide_eq_true_iff

namespace CheckpointKey

/-- Under the prefix of an instance stand the keys of that instance and no other, whatever the step
name and whichever end of the step; and of all texts the database finds those under it that are found
in memory. -/
theorem selects_own_keys_exactly (i j : InstanceId) (step : String) (kind : CheckpointKind) :
    let key := (ofPair j step kind).encode
    ((instancePrefix i).toList.isPrefixOf key.toList = true ↔ i = j) ∧
      (Database.beginsWith (instancePrefix i) (.text key) = true ↔ i = j) ∧
      ∀ text : String, Database.beginsWith (instancePrefix i) (.text text) =
        (instancePrefix i).toList.isPrefixOf text.toList := by
  intro key
  have hmemory : (instancePrefix i).toList.isPrefixOf key.toList = true ↔ i = j :=
    (isPrefixOf_encode i (ofPair j step kind)).trans eq_comm
  have hsame (text : String) : Database.beginsWith (instancePrefix i) (.text text) =
      (instancePrefix i).toList.isPrefixOf text.toList :=
    Database.beginsWith_text (nul_not_mem_instancePrefix i) text
  refine ⟨hmemory, ?_, hsame⟩
  rw [hsame, hmemory]

/-- A numeral that goes on, a step name that begins with the numeral, and one that hides from the
database all that is behind the prefix. -/
example :
    let one : InstanceId := ⟨1, by decide, by decide⟩
    let twelve : InstanceId := ⟨12, by decide, by decide⟩
    Database.beginsWith (instancePrefix one)
        (.text (ofPair twelve "1,copy" .reader).encode) = false ∧
      Database.beginsWith (instancePrefix one)
        (.text (ofPair one "\x00,12" .writer).encode) = true := by
  decide +kernel

end CheckpointKey

end JobLedger
