import JobLedger.Text.Utf8

/-!
# Blob frames

A blob column holds a frame: four octets of mark, a version, a flag that tells a payload from none,
the length of the payload in four octets, and the payload. An absent payload and an empty one have
different frames, and a frame ends where its length says.
-/

namespace JobLedger

open Text

/-- What may be wrong with the payload of a frame. -/
inductive PayloadFault where
  /-- The flag is neither zero nor one. -/
  | presenceFlag (flag : UInt8)
  /-- The flag says that there is no payload, yet there is one. -/
  | nullWithPayload
  /-- There is no payload where a value needs one. -/
  | unexpectedNull
  /-- The length of the payload does not fit the frame. -/
  | tooLong
  /-- The payload is not the written form of a value. -/
  | malformed
  /-- The value has no written form. -/
  | unwritable
  deriving DecidableEq, Repr

/-- Why octets are no blob of the kind asked for. -/
inductive BlobFault where
  | truncated (expected actual : Nat)
  | badMagic
  | unsupportedVersion (version : UInt8)
  | trailing (count : Nat)
  | payload (fault : PayloadFault)
  deriving DecidableEq, Repr

/-- The wording of a fault. -/
def PayloadFault.message : PayloadFault → String
  | presenceFlag flag => "invalid presence flag: " ++ flag.toNat.repr
  | nullWithPayload => "null frame carries a payload"
  | unexpectedNull => "unexpected null frame"
  | tooLong => "payload exceeds 4294967295 bytes"
  | malformed => "the text is not the JSON form of a value"
  | unwritable => "the value has no JSON form"

/-- The wording of a fault. -/
def BlobFault.message : BlobFault → String
  | truncated expected actual =>
    "blob truncated: expected " ++ expected.repr ++ " bytes, found " ++ actual.repr
  | badMagic => "blob frame magic mismatch"
  | unsupportedVersion version => "unsupported blob frame version: " ++ version.toNat.repr
  | trailing count => "blob has " ++ count.repr ++ " trailing bytes"
  | payload fault => "blob payload error: " ++ fault.message

namespace Frame

/-- The four octets of a number of 32 bits, the most significant first. -/
def lengthOctets (n : Nat) : Octets :=
  [UInt8.ofNat (n / 16777216), UInt8.ofNat (n / 65536), UInt8.ofNat (n / 256), UInt8.ofNat n]

/-- The number written by four octets. -/
def lengthOf (a b c d : UInt8) : Nat :=
  a.toNat * 16777216 + b.toNat * 65536 + c.toNat * 256 + d.toNat

/-- The number of octets in front of the payload. -/
def headerLength : Nat := 10

/-- The mark, the version and the flag at the start of a frame. -/
def header (present : Bool) : Octets := [66, 76, 71, 82, 1, if present then 1 else 0]

/-- The frame of a payload. -/
def encode (payload : Option Octets) : Except BlobFault Octets :=
  let body := payload.getD []
  if body.length < UInt32.size then
    .ok (header payload.isSome ++ lengthOctets body.length ++ body)
  else .error (.payload .tooLong)

/-- The payload of a frame of the given flag, length and body; `total` octets were found. -/
def open? (flag : UInt8) (length total : Nat) (body : Octets) :
    Except BlobFault (Option Octets) :=
  if flag ≠ 0 ∧ flag ≠ 1 then .error (.payload (.presenceFlag flag))
  else if body.length < length then .error (.truncated (headerLength + length) total)
  else if length < body.length then .error (.trailing (body.length - length))
  else if flag = 1 then .ok (some body)
  else if length ≠ 0 then .error (.payload .nullWithPayload)
  else .ok none

/-- The payload that a frame holds. -/
def decode (frame : Octets) : Except BlobFault (Option Octets) :=
  match frame with
  | m₁ :: m₂ :: m₃ :: m₄ :: version :: flag :: a :: b :: c :: d :: body =>
    if [m₁, m₂, m₃, m₄] ≠ [66, 76, 71, 82] then .error .badMagic
    else if version ≠ 1 then .error (.unsupportedVersion version)
    else open? flag (lengthOf a b c d) frame.length body
  | _ => .error (.truncated headerLength frame.length)

end Frame

end JobLedger
