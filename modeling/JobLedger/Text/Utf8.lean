/-!
# Octets and characters

Text is stored as UTF-8. Octets are read as letters: a character where one is encoded, and no
character where an octet belongs to none, so that a reader can tell a damaged string from the rest
of the text. Octets that encode a text throughout read back as that text.
-/

namespace JobLedger.Text

/-- A string of octets, as it stands in a file or in a column of a table. -/
abbrev Octets := List UInt8

/-- The UTF-8 form of a text. -/
def octets (text : List Char) : Octets := text.flatMap String.utf8EncodeChar

/-- One position of a text under reading: a character, or an octet that belongs to no character. -/
abbrev Letter := Option Char

/-- The letters of `source` from position `i` on, behind those already `seen` (latest first). -/
def lettersFrom (source : ByteArray) (i : Nat) (seen : List Letter) : List Letter :=
  if i < source.size then
    match source.utf8DecodeChar? i with
    | some c => lettersFrom source (i + c.utf8Size) (some c :: seen)
    | none => lettersFrom source (i + 1) (none :: seen)
  else seen.reverse
termination_by source.size - i
decreasing_by
  · have := c.utf8Size_pos
    omega
  · omega

/-- The letters of a string of octets. -/
def letters (source : Octets) : List Letter := lettersFrom source.toByteArray 0 []

/-- The text that octets encode, if they encode one throughout. -/
def ofOctets? (source : Octets) : Option String := String.fromUTF8? source.toByteArray

end JobLedger.Text
