import JobLedger.Frame
import JobLedger.Json.Form
import JobLedger.Json.Printer
import JobLedger.Json.Reader

/-!
# Codecs

A codec writes values of a type as octets and reads them back. A blob is the frame of a written
value. A codec is lawful when it reads back each value that it writes.
-/

namespace JobLedger

open Json Text

/-- A way to write values as octets, and to read them. -/
structure Codec (α : Type) where
  /-- The written form of a value. -/
  encode : α → Except BlobFault Octets
  /-- The value of a written form. -/
  decode : Octets → Except BlobFault α

namespace Codec

/-- A codec reads back each value that it writes. -/
def Lawful {α : Type} (codec : Codec α) : Prop :=
  ∀ value octets, codec.encode value = .ok octets → codec.decode octets = .ok value

/-- Octets as they are. -/
def raw : Codec Octets := ⟨.ok, .ok⟩

/-- Optional octets in a frame. -/
def frame : Codec (Option Octets) := ⟨Frame.encode, Frame.decode⟩

/-- The octets of the compact JSON form of a value. -/
def jsonOctets {α : Type} [JsonForm α] (value : α) : Octets :=
  octets ((toJson value).renderOnto [])

/-- The value of a JSON text. -/
def ofJsonOctets? {α : Type} [JsonForm α] (source : Octets) : Option α :=
  (read? source).bind ofJson?

/-- The compact JSON form of a value. -/
def json (α : Type) [JsonForm α] : Codec α where
  encode value := .ok (jsonOctets value)
  decode source :=
    match ofJsonOctets? source with
    | some value => .ok value
    | none => .error (.payload .malformed)

/-- A map whose keys are pairs of numbers. The names of a JSON object are strings, so that only the
empty map has a written form. -/
def pairMap : Codec (List ((UInt64 × UInt64) × UInt64)) where
  encode
    | [] => .ok (octets ['{', '}'])
    | _ => .error (.payload .unwritable)
  decode source :=
    match read? source with
    | some (.object []) => .ok []
    | _ => .error (.payload .malformed)

variable {α : Type}

/-- The blob of a value. -/
def encodeBlob (codec : Codec α) (value : α) : Except BlobFault Octets :=
  match codec.encode value with
  | .ok payload => Frame.encode (some payload)
  | .error fault => .error fault

/-- The value of a blob. -/
def decodeBlob (codec : Codec α) (blob : Octets) : Except BlobFault α :=
  match Frame.decode blob with
  | .ok (some payload) => codec.decode payload
  | .ok none => .error (.payload .unexpectedNull)
  | .error fault => .error fault

end Codec

end JobLedger
