import JobLedger.Durable.Progress
import JobLedger.Proofs.Frame
import JobLedger.Proofs.Json.Records
import JobLedger.Proofs.Name.Checkpoint

/-!
# Blobs

The blob of a record is the frame of its JSON form, and a token stands in a frame as it is. What is
short enough for a frame is read back from it. The records that a store writes of its own accord are
short, so that they always have a blob.
-/

namespace JobLedger

open Json Text

/-- The text of the form of a record is short enough for a blob. -/
def HasBlob {α : Type} [JsonForm α] (a : α) : Prop := Frame.Fits (some (Codec.jsonOctets a))

instance {α : Type} [JsonForm α] (a : α) : Decidable (HasBlob a) :=
  inferInstanceAs (Decidable (Frame.Fits _))

/-- The blob of a record. -/
def blob {α : Type} [JsonForm α] (a : α) : Octets := Frame.framed (some (Codec.jsonOctets a))

section Stored

variable {α : Type} [JsonForm α]

/-- A record that fits a frame has its blob. -/
theorem blobOf_of_hasBlob {sort : String} {a : α} (h : HasBlob a) :
    blobOf (Codec.json α) sort a = .ok (blob a) := by
  simp only [blobOf, Codec.encodeBlob, Codec.json, Frame.encode_of_fits h, blob]

/-- A record that does not fit a frame is refused as too long. -/
theorem blobOf_of_not_hasBlob {sort : String} {a : α} (h : ¬ HasBlob a) :
    blobOf (Codec.json α) sort a = .error ⟨.invalid, .blob (.named sort) (.payload .tooLong)⟩ := by
  simp only [blobOf, Codec.encodeBlob, Codec.json, Frame.encode_of_not_fits h]

/-- A record is read back from its blob, wherever that stands. -/
theorem storedValue_blob [LawfulForm α] {place : BlobPlace} {a : α} (h : HasBlob a) :
    storedValue (Codec.json α) place (blob a) = .ok a := by
  have hpayload : (Codec.json α).decode (Codec.jsonOctets a) = .ok a :=
    Codec.lawful_json a _ rfl
  have hblob : (Codec.json α).decodeBlob (blob a) = .ok a := by
    rw [Codec.decodeBlob, blob, Frame.decode_framed h]
    exact hpayload
  rw [storedValue, hblob]

/-- A token that fits a frame has its blob. -/
theorem tokenBlob_of_fits {token : Option Octets} (h : Frame.Fits token) :
    tokenBlob token = .ok (Frame.framed token) := by
  rw [tokenBlob, Frame.encode_of_fits h]

/-- A token that does not fit a frame is refused as too long. -/
theorem tokenBlob_of_not_fits {token : Option Octets} (h : ¬ Frame.Fits token) :
    tokenBlob token = .error ⟨.invalid, .unwritten (.payload .tooLong)⟩ := by
  rw [tokenBlob, Frame.encode_of_not_fits h]

/-- Optional octets are read back from their frame, wherever that stands. -/
theorem storedToken_framed {place : BlobPlace} {token : Option Octets} (h : Frame.Fits token) :
    storedToken place (Frame.framed token) = .ok token := by
  rw [storedToken, Frame.decode_framed h]

/-- A missing token fits a frame. -/
theorem fits_none : Frame.Fits none := by decide

end Stored

/-! ## Records that are written of the store's own accord -/

/-- A text has at most four octets for each character. -/
theorem length_octets_le (text : List Char) : (octets text).length ≤ 4 * text.length := by
  induction text with
  | nil => simp
  | cons c text ih =>
    have hsize := c.utf8Size_le_four
    rw [octets_cons, List.length_append, String.length_utf8EncodeChar, List.length_cons]
    omega

/-- The numeral of an identifier has at most twenty digits. -/
theorem Id.length_numeral_le {entity : Entity} (id : Id entity) :
    (integer id.number).toList.length ≤ 20 := by
  have hpos : ¬ (id.number : Int) < 0 := by omega
  rw [integer, if_neg hpos, Int.natAbs_natCast]
  exact id.length_text_le

/-- A form of few characters is short enough for a blob. -/
theorem hasBlob_of_length {α : Type} [JsonForm α] {a : α}
    (h : ((toJson a).renderOnto []).length < 1000) : HasBlob a := by
  have hoctets := length_octets_le ((toJson a).renderOnto [])
  have hsize : UInt32.size = 4294967296 := rfl
  rw [HasBlob, Frame.Fits, Option.getD_some, Codec.jsonOctets]
  omega

/-- A new status record fits a frame. -/
theorem hasBlob_fresh_jobStatus (id : InstanceId) : HasBlob (JobStatus.fresh id) := by
  refine hasBlob_of_length ?_
  have hlength := id.length_numeral_le
  have hform : ((toJson (JobStatus.fresh id)).renderOnto []).length =
      (integer id.number).toList.length + 130 := by
    simp [JobStatus.fresh, toJson, Value.renderOnto,
      Value.renderMembers, Value.renderMember, quote, escapeChar, BatchStatus.label]
  omega

set_option maxRecDepth 1000 in
/-- A new status record of a step fits a frame. -/
theorem hasBlob_fresh_stepStatus (id : StepId) : HasBlob (StepStatus.fresh id) := by
  refine hasBlob_of_length ?_
  have hlength := id.length_numeral_le
  have hzero : integer 0 = "0" := by decide
  have hform : ((toJson (StepStatus.fresh id)).renderOnto []).length =
      2 * (integer id.number).toList.length + 180 := by
    simp [StepStatus.fresh, toJson, Value.renderOnto,
      Value.renderMembers, Value.renderMember, quote, escapeChar, BatchStatus.label, hzero]
    omega
  omega

end JobLedger
