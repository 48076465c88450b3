import JobLedger.Text.Utf8

/-!
# Letters of a text

Octets that encode a text are read back as the characters of that text, one letter for each. The
reader goes from position to position, so that the statement is about what lies behind the octets
that were read already.
-/

namespace JobLedger.Text

@[simp] theorem octets_nil : octets [] = [] := rfl

theorem octets_cons (c : Char) (text : List Char) :
    octets (c :: text) = String.utf8EncodeChar c ++ octets text := rfl

/-- The character that is encoded behind other octets is decoded at their end. -/
theorem utf8DecodeChar?_append (before after : Octets) (c : Char) :
    (before ++ (String.utf8EncodeChar c ++ after)).toByteArray.utf8DecodeChar? before.length =
      some c := by
  rw [ByteArray.utf8DecodeChar?_eq_utf8DecodeChar?_extract, List.toByteArray_append]
  have hcut : (before.toByteArray ++ (String.utf8EncodeChar c ++ after).toByteArray).extract
      before.length (before.toByteArray ++ (String.utf8EncodeChar c ++ after).toByteArray).size =
        (String.utf8EncodeChar c ++ after).toByteArray := by
    have hsize : before.length = before.toByteArray.size := List.size_toByteArray.symm
    rw [hsize, ByteArray.size_append]
    exact ByteArray.extract_append_eq_right rfl rfl
  rw [hcut, List.toByteArray_append]
  exact ByteArray.utf8DecodeChar?_utf8EncodeChar_append

/-- Reading from the end of the octets before a text adds the letters of the text. -/
theorem lettersFrom_append (before : Octets) (text : List Char) (seen : List Letter) :
    lettersFrom (before ++ octets text).toByteArray before.length seen =
      seen.reverse ++ text.map some := by
  induction text generalizing before seen with
  | nil =>
    rw [octets_nil, List.append_nil]
    unfold lettersFrom
    simp
  | cons c rest ih =>
    have hlt : before.length < (before ++ octets (c :: rest)).toByteArray.size := by
      have hc := c.utf8Size_pos
      simp only [List.size_toByteArray, List.length_append, octets_cons,
        String.length_utf8EncodeChar]
      omega
    have hchar := utf8DecodeChar?_append before (octets rest) c
    have hnext := ih (before ++ String.utf8EncodeChar c) (some c :: seen)
    rw [List.length_append, String.length_utf8EncodeChar, List.append_assoc] at hnext
    unfold lettersFrom
    rw [if_pos hlt, octets_cons, hchar]
    simp only [hnext, List.reverse_cons, List.map_cons, List.append_assoc, List.cons_append,
      List.nil_append]

/-- The letters of the octets of a text are its characters. -/
theorem letters_octets (text : List Char) : letters (octets text) = text.map some := by
  have h := lettersFrom_append [] text []
  simpa [letters] using h

end JobLedger.Text
