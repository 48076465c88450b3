import JobLedger.Frame

/-!
# Frames are read exactly as they are written

Every payload of less than four gigabytes has one frame, whether it is absent, empty or neither, and
no other octets are read as that payload: the flag and the four octets of the length determine each
other through the payload. A frame says where it ends, so that no frame begins another one.
-/

namespace JobLedger

open Text

namespace Frame

/-- A payload is short enough for a frame. -/
def Fits (payload : Option Octets) : Prop := (payload.getD []).length < UInt32.size

instance (payload : Option Octets) : Decidable (Fits payload) :=
  inferInstanceAs (Decidable (_ < _))

/-- The octets of the frame of a payload. -/
def framed (payload : Option Octets) : Octets :=
  header payload.isSome ++ lengthOctets (payload.getD []).length ++ payload.getD []

/-- A payload that fits is put in a frame. -/
theorem encode_of_fits {payload : Option Octets} (h : Fits payload) :
    encode payload = .ok (framed payload) :=
  if_pos h

/-- A payload that does not fit is refused as too long. -/
theorem encode_of_not_fits {payload : Option Octets} (h : ¬ Fits payload) :
    encode payload = .error (.payload .tooLong) :=
  if_neg h

/-- Octets are written for a payload exactly if they are its frame, and it is short enough. -/
theorem encode_eq_ok_iff {payload : Option Octets} {frame : Octets} :
    encode payload = .ok frame ↔ Fits payload ∧ frame = framed payload := by
  by_cases h : Fits payload
  · rw [encode_of_fits h, Except.ok.injEq, and_iff_right h, eq_comm]
  · rw [encode_of_not_fits h]
    exact ⟨nofun, fun hboth => absurd hboth.1 h⟩

/-! ## Lengths of 32 bits -/

/-- A length of 32 bits is read back from its four octets. -/
theorem lengthOf_lengthOctets {n : Nat} (h : n < UInt32.size) :
    lengthOf (UInt8.ofNat (n / 16777216)) (UInt8.ofNat (n / 65536)) (UInt8.ofNat (n / 256))
      (UInt8.ofNat n) = n := by
  simp only [lengthOf, UInt8.toNat_ofNat']
  have hsize : UInt32.size = 4294967296 := rfl
  omega

/-- Four octets have a value below the limit of the length. -/
theorem lengthOf_lt (a b c d : UInt8) : lengthOf a b c d < UInt32.size := by
  have ha := a.toNat_lt
  have hb := b.toNat_lt
  have hc := c.toNat_lt
  have hd := d.toNat_lt
  have hsize : UInt32.size = 4294967296 := rfl
  rw [lengthOf]
  omega

/-- Four octets are those of the length that they write. -/
theorem lengthOctets_lengthOf (a b c d : UInt8) : lengthOctets (lengthOf a b c d) = [a, b, c, d] := by
  have ha := a.toNat_lt
  have hb := b.toNat_lt
  have hc := c.toNat_lt
  have hd := d.toNat_lt
  have hoctet {n : Nat} {x : UInt8} (h : n % 256 = x.toNat) : UInt8.ofNat n = x := by
    rw [← UInt8.toNat_inj, UInt8.toNat_ofNat']
    exact h
  rw [lengthOctets, hoctet (x := a), hoctet (x := b), hoctet (x := c), hoctet (x := d)]
  all_goals
    rw [lengthOf]
    omega

/-! ## Reading -/

/-- A payload is read back from its frame. -/
theorem decode_framed {payload : Option Octets} (h : Fits payload) :
    decode (framed payload) = .ok payload := by
  have hlength := lengthOf_lengthOctets h
  cases payload with
  | none =>
    have hbody : framed none = [66, 76, 71, 82, 1, 0, 0, 0, 0, 0] := rfl
    rw [hbody, decode, if_neg (by decide), if_neg (by decide), open?]
    simp [lengthOf]
  | some body =>
    rw [Option.getD_some] at hlength
    have hbody : framed (some body) =
        66 :: 76 :: 71 :: 82 :: 1 :: 1 :: UInt8.ofNat (body.length / 16777216) ::
          UInt8.ofNat (body.length / 65536) :: UInt8.ofNat (body.length / 256) ::
          UInt8.ofNat body.length :: body := rfl
    rw [hbody, decode, if_neg (by decide), if_neg (by decide), hlength, open?]
    simp

/-- A header that is accepted has the flag of the payload, and the length of its octets. -/
theorem open?_eq_ok {flag : UInt8} {length total : Nat} {body : Octets} {payload : Option Octets}
    (h : open? flag length total body = .ok payload) :
    payload.getD [] = body ∧ body.length = length ∧ flag = if payload.isSome then 1 else 0 := by
  rw [open?] at h
  split at h
  · exact nomatch h
  next hflag =>
  split at h
  · exact nomatch h
  split at h
  · exact nomatch h
  have hlength : body.length = length := by omega
  split at h
  · next hone =>
    obtain rfl := Except.ok.inj h
    exact ⟨rfl, hlength, hone⟩
  next hone =>
  split at h
  · exact nomatch h
  next hzero =>
  obtain rfl := Except.ok.inj h
  have hempty : body = [] := List.eq_nil_of_length_eq_zero (by omega)
  have hnull : flag = 0 := Decidable.byContradiction fun hne => hflag ⟨hne, hone⟩
  exact ⟨hempty.symm, hlength, hnull⟩

/-- Only the frame of a payload is read as the payload. -/
theorem eq_framed_of_decode {frame : Octets} {payload : Option Octets}
    (h : decode frame = .ok payload) : Fits payload ∧ frame = framed payload := by
  unfold decode at h
  split at h
  · next m₁ m₂ m₃ m₄ version flag a b c d body =>
    split at h
    · exact nomatch h
    next hmark =>
    split at h
    · exact nomatch h
    next hversion =>
    obtain ⟨hbody, hlength, hflag⟩ := open?_eq_ok h
    have hfits : Fits payload := by
      rw [Fits, hbody, hlength]
      exact lengthOf_lt a b c d
    refine ⟨hfits, ?_⟩
    rw [Decidable.not_not] at hmark hversion
    injection hmark with h₁ hmark
    injection hmark with h₂ hmark
    injection hmark with h₃ hmark
    injection hmark with h₄ _
    rw [framed, hbody, hlength, lengthOctets_lengthOf, header, ← hflag, h₁, h₂, h₃, h₄, hversion]
    rfl
  · exact nomatch h

/-- Octets are read as a payload exactly if they are written for it. -/
theorem decode_eq_ok_iff {frame : Octets} {payload : Option Octets} :
    decode frame = .ok payload ↔ encode payload = .ok frame := by
  rw [encode_eq_ok_iff]
  refine ⟨eq_framed_of_decode, ?_⟩
  rintro ⟨hfits, rfl⟩
  exact decode_framed hfits

/-! ## No frame begins another one -/

/-- The length of a payload stands in its frame, so that a frame which begins another one ends with
it. -/
theorem framed_eq_of_isPrefix {p q : Option Octets} (hp : Fits p) (hq : Fits q)
    (h : framed p <+: framed q) : framed p = framed q := by
  refine h.eq_of_length ?_
  simp only [framed, header, lengthOctets, List.cons_append, List.nil_append,
    List.cons_prefix_cons] at h ⊢
  obtain ⟨-, -, -, -, -, -, ha, hb, hc, hd, -⟩ := h
  have hlength := lengthOf_lengthOctets hp
  rw [ha, hb, hc, hd, lengthOf_lengthOctets hq] at hlength
  simp only [List.length_cons, hlength]

/-- Of two texts of octets that are read, of which one begins the other, both are the same. -/
theorem eq_of_isPrefix {a b : Octets} {p q : Option Octets} (ha : decode a = .ok p)
    (hb : decode b = .ok q) (h : a <+: b) : a = b := by
  obtain ⟨hp, rfl⟩ := eq_framed_of_decode ha
  obtain ⟨hq, rfl⟩ := eq_framed_of_decode hb
  exact framed_eq_of_isPrefix hp hq h

/-- Every payload that is short enough is written as octets which are read as it; no others are, and
what is cut off from them or carries on behind them is not read at all. -/
theorem reads_what_is_written (payload : Option Octets) :
    (Fits payload → ∃ frame, encode payload = .ok frame) ∧
      (∀ frame, decode frame = .ok payload ↔ encode payload = .ok frame) ∧
        ∀ frame other, encode payload = .ok frame → other ≠ frame →
          other <+: frame ∨ frame <+: other → ∃ fault, decode other = .error fault := by
  refine ⟨fun hfits => ⟨_, encode_of_fits hfits⟩, fun frame => decode_eq_ok_iff, ?_⟩
  intro frame other hframe hne hbegins
  have hread := decode_eq_ok_iff.mpr hframe
  cases hother : decode other with
  | error fault => exact ⟨fault, rfl⟩
  | ok q =>
    rcases hbegins with hcut | hmore
    · exact absurd (eq_of_isPrefix hother hread hcut) hne
    · exact absurd (eq_of_isPrefix hread hother hmore).symm hne

/-- An empty payload is read back from a frame that is not the one of an absent payload. Its frame is
not read without its last octet, nor with one more. -/
theorem reads_empty_payload :
    Fits (some []) ∧ encode (some []) = .ok [66, 76, 71, 82, 1, 1, 0, 0, 0, 0] ∧
      encode none = .ok [66, 76, 71, 82, 1, 0, 0, 0, 0, 0] ∧
      decode [66, 76, 71, 82, 1, 1, 0, 0, 0, 0] = .ok (some []) ∧
      (∃ fault, decode [66, 76, 71, 82, 1, 1, 0, 0, 0] = .error fault) ∧
        ∃ fault, decode [66, 76, 71, 82, 1, 1, 0, 0, 0, 0, 7] = .error fault := by
  obtain ⟨-, hreads, hends⟩ := reads_what_is_written (some [])
  have hframe : encode (some []) = .ok [66, 76, 71, 82, 1, 1, 0, 0, 0, 0] := rfl
  exact ⟨by decide, hframe, rfl, (hreads _).mpr hframe, hends _ _ hframe (by decide) (.inl (by decide)),
    hends _ _ hframe (by decide) (.inr (by decide))⟩

end Frame

end JobLedger
