import JobLedger.Proofs.Time.Reading

/-!
# Digits past the millisecond

The digits of a fraction behind the third are dropped from the count of nanoseconds since 1970, not
from the text. From 1970 on it makes no difference which of both is done. Before 1970 the count is
negative and dropping its last digits moves the moment forward: a text with a digit other than zero
in the fourth to ninth place of its fraction is read as one millisecond more than the text without
these digits, unless it writes a leap second, of which the fraction is not looked at.
-/

namespace JobLedger.Timestamp

open Time Text

/-- The digits of the fraction of a second, behind the date, the time of the day and a point. -/
def fractionDigits (text : List Char) : List Char :=
  if text[19]? = some '.' then (text.drop 20).takeWhile Char.isDigit else []

/-- The text without the digits of its fraction behind the third. -/
def cutFraction (text : List Char) : List Char :=
  text.take 23 ++ (text.drop 23).dropWhile Char.isDigit

/-- The seconds of a text are those of a leap second. -/
def WritesLeapSecond (text : List Char) : Prop := (text.drop 17).take 2 = ['6', '0']

/-- The fraction of a text lies between two milliseconds: one of its digits behind the third is no
zero. Those behind the ninth do not count. -/
def SplitsMillisecond (text : List Char) : Prop :=
  ∃ c ∈ ((fractionDigits text).take 9).drop 3, c ≠ '0'

instance (text : List Char) : Decidable (WritesLeapSecond text) :=
  inferInstanceAs (Decidable (_ = _))

instance (text : List Char) : Decidable (SplitsMillisecond text) :=
  inferInstanceAs (Decidable (∃ _ ∈ _, _))

/-! ## The nanoseconds of a fraction -/

/-- Two groups of digits have the values of the first one for each value of the second one. -/
theorem places_add (a b : Nat) : places (a + b) = places a * places b := by
  induction a with
  | zero => rw [Nat.zero_add, places, Nat.one_mul]
  | succ a ih => rw [Nat.succ_add, places, places, ih, Nat.mul_assoc]

/-- Digits of any number, even none, have a value. -/
theorem places_pos (width : Nat) : 0 < places width := by
  induction width with
  | zero => exact Nat.one_pos
  | succ width ih => exact Nat.mul_pos (by decide) ih

/-- Digits have the value zero if all of them are zero. -/
theorem ofDigitChars_eq_zero_iff {digits : List Char} (h : ∀ c ∈ digits, c.isDigit = true) :
    Nat.ofDigitChars 10 digits 0 = 0 ↔ ∀ c ∈ digits, c = '0' := by
  induction digits with
  | nil => simp
  | cons c rest ih =>
    obtain ⟨hc, hrest⟩ := List.forall_mem_cons.mp h
    have hbounds := isDigit_bounds hc
    have hpos := places_pos rest.length
    rw [Nat.ofDigitChars_cons, ofDigitChars_eq_add, Nat.mul_zero, Nat.zero_add, Nat.add_eq_zero_iff,
      Nat.mul_eq_zero, ih hrest, List.forall_mem_cons, ← Char.toNat_inj]
    have hvalue : c.toNat - '0'.toNat = 0 ↔ c.toNat = '0'.toNat := by omega
    have hweight : places rest.length ≠ 0 := Nat.ne_of_gt hpos
    simp only [hvalue, hweight, or_false]

/-- Digits behind the ninth do not count. -/
theorem nanos_take (digits : List Char) : nanos (digits.take 9) = nanos digits := by
  rw [nanos, nanos, List.take_append, List.take_append, List.take_take, List.length_take]
  have hzeros : 9 - min 9 digits.length = 9 - digits.length := by omega
  rw [Nat.min_self, hzeros]

/-- What a fraction has behind its milliseconds is less than one of them, and nothing if the digits
are zeros. -/
theorem nanos_eq_add {digits : List Char} (hdigits : ∀ c ∈ digits, c.isDigit = true)
    (hlong : 3 < digits.length) :
    ∃ millis rest, nanos (digits.take 3) = millis * 1000000 ∧
      nanos digits = millis * 1000000 + rest ∧ rest < 1000000 ∧
      (rest = 0 ↔ ∀ c ∈ (digits.take 9).drop 3, c = '0') := by
  generalize hlast : (digits.take 9).drop 3 = last
  have hfirst : (digits.take 9).take 3 = digits.take 3 := by rw [List.take_take]; rfl
  have hnine : digits.take 9 = digits.take 3 ++ last := by
    rw [← hfirst, ← hlast, List.take_append_drop]
  have hthree : (digits.take 3).length = 3 := by rw [List.length_take]; omega
  have hlength : last.length ≤ 6 := by
    have htotal := List.length_take_le 9 digits
    rw [hnine, List.length_append, hthree] at htotal
    omega
  have hlastDigits : ∀ c ∈ last, c.isDigit = true := by
    intro c hc
    rw [← hlast] at hc
    exact hdigits c (List.mem_of_mem_take (List.mem_of_mem_drop hc))
  have hshort : (digits.take 9).length ≤ 9 := List.length_take_le 9 digits
  have hweight : places last.length * places (6 - last.length) = 1000000 := by
    rw [← places_add, Nat.add_sub_cancel' hlength]
    rfl
  have hplaces : 9 - (3 + last.length) = 6 - last.length := by omega
  refine ⟨Nat.ofDigitChars 10 (digits.take 3) 0,
    Nat.ofDigitChars 10 last 0 * places (6 - last.length), ?_, ?_, ?_, ?_⟩
  · rw [nanos_of_length_le (by omega), hthree]
    rfl
  · rw [← nanos_take, nanos_of_length_le hshort, hnine, List.length_append, hthree, hplaces,
      Nat.ofDigitChars_append, ofDigitChars_eq_add last, Nat.add_mul, Nat.mul_assoc, hweight]
  · have hlt := Nat.mul_lt_mul_of_pos_right (ofDigitChars_lt hlastDigits)
      (places_pos (6 - last.length))
    rwa [hweight] at hlt
  · rw [Nat.mul_eq_zero, ofDigitChars_eq_zero_iff hlastDigits]
    have hpos : places (6 - last.length) ≠ 0 := Nat.ne_of_gt (places_pos _)
    simp only [hpos, or_false]

/-! ## Milliseconds of a moment -/

/-- A part of a millisecond is dropped from 1970 on, and fills the millisecond before 1970. -/
theorem tdiv_million (seconds : Int) (millis : Nat) {rest : Nat} (hrest : rest < 1000000) :
    (seconds * 1000000000 + (millis * 1000000 + rest : Nat)).tdiv 1000000 =
      seconds * 1000 + millis + if seconds * 1000 + millis < 0 ∧ rest ≠ 0 then 1 else 0 := by
  rw [Int.tdiv_eq_ediv]
  have hdvd : (1000000 : Int) ∣ seconds * 1000000000 + (millis * 1000000 + rest : Nat) ↔
      rest = 0 := by omega
  have hquotient : (seconds * 1000000000 + (millis * 1000000 + rest : Nat)) / 1000000 =
      seconds * 1000 + millis := by omega
  have hsign : (1000000 : Int).sign = 1 := rfl
  rw [hquotient, hsign]
  split
  · next hdropped =>
    rw [hdvd] at hdropped
    rw [if_neg (by omega)]
  · next hfilled =>
    rw [hdvd] at hfilled
    rw [if_pos (by omega)]

/-- An offset is less than a day. -/
theorem offset?_bounds {zone : List Char} {offset : Int} (h : offset? zone = some offset) :
    -1440 < offset ∧ offset < 1440 := by
  unfold offset? at h
  split at h
  · cases h; decide
  · cases h; decide
  · next sign rest =>
    simp only [Option.bind_eq_bind, Option.bind_eq_some_iff, Prod.exists] at h
    obtain ⟨hours, _, -, _, -, minutes, _, -, h⟩ := h
    split at h
    · next hbounds =>
      obtain ⟨hhours, hminutes, -⟩ := hbounds
      split at h
      · have hoffset := Option.some.inj h
        omega
      · split at h
        · have hoffset := Option.some.inj h
          omega
        · exact nomatch h
    · exact nomatch h
  · exact nomatch h

/-! ## Texts with a long fraction -/

/-- The fraction of a text is cut in front of what follows its digits. -/
theorem cutFraction_append {front digits zone : List Char} (hfront : front.length = 19)
    (hdigits : ∀ c ∈ digits, c.isDigit = true) (hlong : 3 < digits.length)
    (hzone : ∀ c ∈ zone.head?, c.isDigit = false) :
    cutFraction (front ++ '.' :: (digits ++ zone)) = front ++ '.' :: (digits.take 3 ++ zone) := by
  have htake : (front ++ '.' :: (digits ++ zone)).take 23 = front ++ '.' :: digits.take 3 := by
    rw [List.take_append, List.take_of_length_le (by omega), hfront, List.take_succ_cons,
      List.take_append_of_le_length (Nat.le_of_lt hlong)]
  have hdrop : (front ++ '.' :: (digits ++ zone)).drop 23 = digits.drop 3 ++ zone := by
    rw [List.drop_append, List.drop_of_length_le (by omega), hfront, List.drop_succ_cons,
      List.drop_append_of_le_length (Nat.le_of_lt hlong), List.nil_append]
  have hrest : ∀ c ∈ digits.drop 3, c.isDigit = true :=
    fun c hc => hdigits c (List.mem_of_mem_drop hc)
  rw [cutFraction, htake, hdrop, List.dropWhile_append_of_pos hrest,
    dropWhile_eq_self_of_head? hzone, List.append_assoc, List.cons_append]

namespace Written

variable {w : Written} {text front : List Char}

/-- Sixty is written in one way. -/
theorem eq_sixty_iff {n : Nat} {run : List Char} (h : Numeral 2 n run) :
    run = ['6', '0'] ↔ n = 60 := by
  obtain ⟨c, d, rfl⟩ : ∃ c d, run = [c, d] := by
    match run, h.length_eq with
    | [c, d], _ => exact ⟨c, d, rfl⟩
  obtain ⟨hc, hd⟩ : c.isDigit = true ∧ d.isDigit = true := by simpa using h.isDigit
  have hvalue := h.value_eq
  rw [Nat.ofDigitChars_cons, Nat.ofDigitChars_cons, Nat.ofDigitChars_nil] at hvalue
  have htens := isDigit_bounds hc
  have hones := isDigit_bounds hd
  have hcodes : '0'.toNat = 48 ∧ '6'.toNat = 54 ∧ '9'.toNat = 57 := ⟨rfl, rfl, rfl⟩
  rw [List.cons.injEq, List.cons.injEq, ← Char.toNat_inj, ← Char.toNat_inj]
  simp only [and_true]
  omega

/-- The seconds are the last two characters in front of the fraction. -/
theorem Front.writesLeapSecond_iff (h : w.Front front) (tail : List Char) :
    WritesLeapSecond (front ++ tail) ↔ w.second = 60 := by
  cases h with
  | @intro year month day hour minute second separator hyear hmonth hday _ hhour hminute hsecond =>
    generalize hbefore : year ++ '-' :: (month ++ '-' :: (day ++ separator ::
      (hour ++ ':' :: (minute ++ [':'])))) = before
    have hlength : before.length = 17 := by
      rw [← hbefore]
      simp only [List.length_append, List.length_cons, List.length_nil, hyear.length_eq,
        hmonth.length_eq, hday.length_eq, hhour.length_eq, hminute.length_eq]
    have htext : year ++ '-' :: (month ++ '-' :: (day ++ separator ::
        (hour ++ ':' :: (minute ++ ':' :: second)))) ++ tail = before ++ (second ++ tail) := by
      rw [← hbefore]
      simp only [List.append_assoc, List.cons_append, List.nil_append]
    rw [WritesLeapSecond, htext, List.drop_left' hlength, List.take_left' hsecond.length_eq,
      eq_sixty_iff hsecond]

/-- The parts of a text with a fraction. -/
theorem exists_parts (h : ofText? text = some w) (hlong : fractionDigits text ≠ []) :
    w.InCalendar ∧ ∃ front zone, w.Front front ∧
      text = front ++ '.' :: (fractionDigits text ++ zone) ∧
      (∀ c ∈ fractionDigits text, c.isDigit = true) ∧ (∀ c ∈ zone.head?, c.isDigit = false) ∧
      nanos (fractionDigits text) = w.nano ∧ offset? zone = some w.offset := by
  obtain ⟨hcalendar, front, tail, zone, hfront, htext, hfraction, hoffset⟩ := ofText?_eq_some h
  have hpoint : text[19]? = some '.' := by
    by_cases hpoint : text[19]? = some '.'
    · exact hpoint
    · exact absurd (if_neg hpoint) hlong
  have hhead : tail.head? = some '.' := by
    rw [htext, List.getElem?_append_right (Nat.le_of_eq hfront.length_eq), hfront.length_eq,
      Nat.sub_self, ← List.head?_eq_getElem?] at hpoint
    exact hpoint
  obtain ⟨rest, rfl⟩ := List.head?_eq_some_iff.mp hhead
  have hdigits : fractionDigits text = rest.takeWhile Char.isDigit := by
    have hdrop : text.drop 20 = rest := by
      rw [htext, List.drop_append, List.drop_of_length_le (by rw [hfront.length_eq]; decide),
        hfront.length_eq]
      rfl
    rw [fractionDigits, if_pos hpoint, hdrop]
  have hzone := head?_dropWhile Char.isDigit rest
  have hrest : rest = fractionDigits text ++ rest.dropWhile Char.isDigit := by
    rw [hdigits, List.takeWhile_append_dropWhile]
  have hall : ∀ c ∈ fractionDigits text, c.isDigit = true := by
    rw [hdigits]
    exact forall_takeWhile Char.isDigit rest
  rw [hrest, fraction?_digits hlong hall hzone, Option.some.injEq, Prod.mk.injEq] at hfraction
  obtain ⟨hnano, rfl⟩ := hfraction
  exact ⟨hcalendar, front, _, hfront, by rw [← hrest, htext], hall, hzone, hnano, hoffset⟩

/-- A text with a long fraction is read without the digits behind the third as the same date and
time with the fraction that is left. -/
theorem ofText?_cutFraction (h : ofText? text = some w) (hlong : 3 < (fractionDigits text).length) :
    ofText? (cutFraction text) = some { w with nano := nanos ((fractionDigits text).take 3) } := by
  have hne : fractionDigits text ≠ [] := List.length_pos_iff.mp (Nat.zero_lt_of_lt hlong)
  obtain ⟨hcalendar, front, zone, hfront, htext, hdigits, hzone, -, hoffset⟩ := exists_parts h hne
  generalize fractionDigits text = digits at *
  have hthree : digits.take 3 ≠ [] := by
    rw [Ne, List.take_eq_nil_iff, not_or]
    exact ⟨by decide, hne⟩
  have hread := fraction?_digits hthree (fun c hc => hdigits c (List.mem_of_mem_take hc)) hzone
  rw [htext, cutFraction_append hfront.length_eq hdigits hlong hzone]
  have hfront' : Front { w with nano := nanos (digits.take 3) } front := by
    cases hfront with
    | intro hyear hmonth hday hseparator hhour hminute hsecond =>
      exact .intro hyear hmonth hday hseparator hhour hminute hsecond
  exact ofText?_append ⟨hcalendar.date, hcalendar.hour, hcalendar.minute, hcalendar.second⟩ hfront'
    hread hoffset

/-- A leap second is the same moment whatever its fraction is. -/
theorem nanosSince1970?_of_leapSecond (h : w.second = 60) (nano : Nat) :
    nanosSince1970? { w with nano := nano } = w.nanosSince1970? := by
  rw [nanosSince1970?, nanosSince1970?, if_pos h, if_pos h]
  rfl

/-- A second that is no leap second is counted from 1970 on. -/
theorem nanosSince1970?_of_second (h : w.second ≠ 60) (nano : Nat) :
    nanosSince1970? { w with nano := nano } = some (w.seconds * 1000000000 + nano) := by
  rw [nanosSince1970?, if_neg h]
  rfl

/-- The seconds of a written moment are far from the first ones that a word can count. -/
theorem le_seconds {zone : List Char} (h : offset? zone = some w.offset) :
    -100000000000 ≤ w.seconds := by
  obtain ⟨-, hhigh⟩ := offset?_bounds h
  rw [seconds, epochDay]
  omega

end Written

section Cut

variable {text : String} {t : Timestamp} {w : Written}

/-- The fraction of a leap second makes no difference. -/
theorem ofRfc3339?_cutFraction_of_leapSecond (h : ofRfc3339? text = some t)
    (hread : Written.ofText? text.toList = some w) (hsecond : w.second = 60)
    (hlong : 3 < (fractionDigits text.toList).length) :
    ofRfc3339? (String.ofList (cutFraction text.toList)) = some t := by
  obtain ⟨w', nanos, hread', hnanos, hmillis⟩ := ofRfc3339?_eq_some_iff.mp h
  obtain rfl : w = w' := Option.some.inj (hread.symm.trans hread')
  have hreadCut := Written.ofText?_cutFraction hread hlong
  rw [← String.toList_ofList (l := cutFraction text.toList)] at hreadCut
  have hsame (nano : Nat) : Written.nanosSince1970? { w with nano := nano } = some nanos :=
    (Written.nanosSince1970?_of_leapSecond hsecond nano).trans hnanos
  exact ofRfc3339?_eq_some_iff.mpr ⟨_, nanos, hreadCut, hsame _, hmillis⟩

/-- In any other second the digits behind the third fill their millisecond before 1970, and are
dropped from 1970 on. -/
theorem exists_cutFraction_of_second (h : ofRfc3339? text = some t)
    (hread : Written.ofText? text.toList = some w) (hsecond : w.second ≠ 60)
    (hlong : 3 < (fractionDigits text.toList).length) :
    ∃ t', ofRfc3339? (String.ofList (cutFraction text.toList)) = some t' ∧
      t.millis.toInt = t'.millis.toInt +
        if t'.millis.toInt < 0 ∧ SplitsMillisecond text.toList then 1 else 0 := by
  obtain ⟨w', nanos, hread', hnanos, hfits, hmillis⟩ := ofRfc3339?_eq_some_iff.mp h
  obtain rfl : w = w' := Option.some.inj (hread.symm.trans hread')
  have hne : fractionDigits text.toList ≠ [] := List.length_pos_iff.mp (Nat.zero_lt_of_lt hlong)
  obtain ⟨-, _, zone, -, -, hdigits, -, hnano, hoffset⟩ := Written.exists_parts hread hne
  obtain ⟨millis, rest, hthree, hall, hrest, hzeros⟩ := nanos_eq_add hdigits hlong
  have hsplits : SplitsMillisecond text.toList ↔ rest ≠ 0 := by
    rw [SplitsMillisecond, Ne, hzeros]
    simp
  have hwhole := Written.nanosSince1970?_of_second hsecond w.nano
  rw [hnanos, Option.some.injEq, ← hnano, hall] at hwhole
  rw [hwhole, tdiv_million _ _ hrest] at hmillis hfits
  -- Without the rest there is nothing to fill.
  have hcut := tdiv_million w.seconds millis (by decide : 0 < 1000000)
  rw [if_neg (fun hmoves => hmoves.2 rfl), Int.add_zero, Nat.add_zero] at hcut
  have hfitsCut : FitsSigned (w.seconds * 1000 + millis) := by
    have hlimit : signedLimit = 9223372036854775808 := rfl
    have hbegin := Written.le_seconds hoffset
    obtain ⟨-, hend⟩ := hfits
    refine ⟨by omega, ?_⟩
    split at hend <;> omega
  have hword := Int64.toInt_ofInt_of_le hfitsCut.1 hfitsCut.2
  refine ⟨⟨Int64.ofInt (w.seconds * 1000 + millis)⟩, ?_, ?_⟩
  · have hreadCut := Written.ofText?_cutFraction hread hlong
    rw [← String.toList_ofList (l := cutFraction text.toList)] at hreadCut
    have hnanosCut := Written.nanosSince1970?_of_second hsecond (millis * 1000000)
    rw [← hthree] at hnanosCut hcut
    refine ofRfc3339?_eq_some_iff.mpr ⟨_, _, hreadCut, hnanosCut, ?_⟩
    rw [hcut]
    exact ⟨hfitsCut, hword⟩
  · rw [hword, hmillis]
    simp only [hsplits]

/-- A text with more than three digits in its fraction is read without the digits behind the third
too. The moment is the same one, unless it lies before 1970, is no leap second, and the digits that
were left out are not all zeros: then the text is read as one millisecond more. -/
theorem rfc3339_cutFraction (h : ofRfc3339? text = some t)
    (hlong : 3 < (fractionDigits text.toList).length) :
    ∃ t', ofRfc3339? (String.ofList (cutFraction text.toList)) = some t' ∧
      t.millis.toInt = t'.millis.toInt +
        if t'.millis.toInt < 0 ∧ ¬ WritesLeapSecond text.toList ∧ SplitsMillisecond text.toList
        then 1 else 0 := by
  obtain ⟨w, _, hread, -, -⟩ := ofRfc3339?_eq_some_iff.mp h
  obtain ⟨-, front, tail, _, hfront, htext, -, -⟩ := Written.ofText?_eq_some hread
  have hleap : WritesLeapSecond text.toList ↔ w.second = 60 := by
    rw [htext]
    exact hfront.writesLeapSecond_iff tail
  by_cases hsecond : w.second = 60
  · refine ⟨t, ofRfc3339?_cutFraction_of_leapSecond h hread hsecond hlong, ?_⟩
    rw [if_neg (fun hmoves => hmoves.2.1 (hleap.mpr hsecond)), Int.add_zero]
  · obtain ⟨t', hcut, hmillis⟩ := exists_cutFraction_of_second h hread hsecond hlong
    refine ⟨t', hcut, ?_⟩
    simp only [hmillis, hleap, hsecond, not_false_eq_true, true_and]

end Cut

/-- On a leap day before 1970, five and a half hours in front of UTC. -/
theorem rfc3339_cutFraction_leapDay :
    ofRfc3339? "1960-02-29T23:59:59.12345+05:30" = some ⟨-310455000876⟩ ∧
      3 < (fractionDigits "1960-02-29T23:59:59.12345+05:30".toList).length ∧
      ∃ t', ofRfc3339? (String.ofList (cutFraction "1960-02-29T23:59:59.12345+05:30".toList)) =
          some t' ∧
        (Timestamp.mk (-310455000876)).millis.toInt = t'.millis.toInt +
          if t'.millis.toInt < 0 ∧ ¬ WritesLeapSecond "1960-02-29T23:59:59.12345+05:30".toList ∧
            SplitsMillisecond "1960-02-29T23:59:59.12345+05:30".toList then 1 else 0 := by
  have hread : ofRfc3339? "1960-02-29T23:59:59.12345+05:30" = some ⟨-310455000876⟩ := by
    decide +kernel
  have hlong : 3 < (fractionDigits "1960-02-29T23:59:59.12345+05:30".toList).length := by
    decide +kernel
  exact ⟨hread, hlong, rfc3339_cutFraction hread hlong⟩

/-- The last half of a millisecond of 1969 is read as the start of 1970, and as a millisecond before
it without its fourth digit. -/
theorem rfc3339_endOf1969 :
    ofRfc3339? "1969-12-31T23:59:59.9995Z" = some ⟨0⟩ ∧
      cutFraction "1969-12-31T23:59:59.9995Z".toList = "1969-12-31T23:59:59.999Z".toList ∧
      ofRfc3339? "1969-12-31T23:59:59.999Z" = some ⟨-1⟩ := by
  decide +kernel

end JobLedger.Timestamp
