import JobLedger.Proofs.Time.Digits

/-!
# What is read as a date and a time

A text that is read as a moment has its date and time of the day in front, in a fixed number of
characters, then a fraction of a second or none, and an offset from UTC at its end. The parts are
read one after the other, so that a text with another fraction is read as the same date and time
with another fraction.
-/

namespace JobLedger.Timestamp

open Time

/-- The moment of a number of milliseconds has this number. -/
theorem ofMillis?_eq_some_iff {i : Int} {t : Timestamp} :
    ofMillis? i = some t ↔ FitsSigned i ∧ t.millis.toInt = i := by
  rw [ofMillis?, Option.map_eq_some_iff]
  constructor
  · intro h
    obtain ⟨word, hword, rfl⟩ := h
    have hvalue := toInt_of_int64? hword
    exact ⟨hvalue ▸ fitsSigned_toInt word, hvalue⟩
  · intro h
    obtain ⟨-, hvalue⟩ := h
    exact ⟨t.millis, by rw [← hvalue, int64?_toInt], rfl⟩

namespace Written

/-- The characters in front of the fraction of a second: the numerals of the date and of the time of
the day with their separators, of which the one between the date and the time may be any ASCII
character. -/
inductive Front (w : Written) : List Char → Prop
  | intro {year month day hour minute second : List Char} {separator : Char}
      (hyear : Numeral 4 w.date.year year) (hmonth : Numeral 2 w.date.month month)
      (hday : Numeral 2 w.date.day day) (hseparator : separator.toNat < 128)
      (hhour : Numeral 2 w.hour hour) (hminute : Numeral 2 w.minute minute)
      (hsecond : Numeral 2 w.second second) :
      Front w (year ++ '-' :: (month ++ '-' :: (day ++ separator ::
        (hour ++ ':' :: (minute ++ ':' :: second)))))

/-- The calendar has the date, and the day has the time. -/
structure InCalendar (w : Written) : Prop where
  date : w.date.Valid
  hour : w.hour ≤ 23
  minute : w.minute ≤ 59
  second : w.second ≤ 60

theorem Front.length_eq {w : Written} {front : List Char} (h : w.Front front) :
    front.length = 19 := by
  cases h with
  | intro hyear hmonth hday _ hhour hminute hsecond =>
    simp only [List.length_append, List.length_cons, hyear.length_eq, hmonth.length_eq,
      hday.length_eq, hhour.length_eq, hminute.length_eq, hsecond.length_eq]

/-- A text that is read as a moment has the parts in this order. -/
theorem ofText?_eq_some {text : List Char} {w : Written} (h : ofText? text = some w) :
    w.InCalendar ∧ ∃ front tail zone, w.Front front ∧ text = front ++ tail ∧
      fraction? tail = some (w.nano, zone) ∧ offset? zone = some w.offset := by
  simp only [ofText?, Option.bind_eq_bind, Option.bind_eq_some_iff, Prod.exists,
    digits?_eq_some_iff, after?_eq_some_iff] at h
  obtain ⟨yearNumber, _, ⟨year, hyear, rfl⟩, _, rfl, monthNumber, _, ⟨month, hmonth, rfl⟩, _, rfl,
    dayNumber, behind, ⟨day, hday, rfl⟩, separator, hhead, h⟩ := h
  split at h
  · exact nomatch h
  next hseparator =>
  obtain ⟨rest, rfl⟩ : ∃ rest, behind = separator :: rest := List.head?_eq_some_iff.mp hhead
  simp only [List.tail_cons, Option.bind_eq_some_iff, Prod.exists, digits?_eq_some_iff,
    after?_eq_some_iff] at h
  obtain ⟨hourNumber, _, ⟨hour, hhour, rfl⟩, _, rfl, minuteNumber, _, ⟨minute, hminute, rfl⟩, _,
    rfl, secondNumber, tail, ⟨second, hsecond, rfl⟩, nano, zone, hfraction, offset, hoffset, h⟩ := h
  split at h
  · next hcalendar =>
    obtain rfl := Option.some.inj h
    obtain ⟨hdate, hhours, hminutes, hseconds⟩ := hcalendar
    refine ⟨⟨hdate, hhours, hminutes, hseconds⟩, _, tail, zone,
      .intro hyear hmonth hday (Nat.lt_of_not_le hseparator) hhour hminute hsecond, ?_, hfraction,
      hoffset⟩
    simp only [List.append_assoc, List.cons_append]
  · exact nomatch h

/-- A text of these parts is read as them. -/
theorem ofText?_append {w : Written} {front tail zone : List Char} (hcalendar : w.InCalendar)
    (hfront : w.Front front) (hfraction : fraction? tail = some (w.nano, zone))
    (hoffset : offset? zone = some w.offset) : ofText? (front ++ tail) = some w := by
  cases hfront with
  | intro hyear hmonth hday hseparator hhour hminute hsecond =>
    have hdigits {width n : Nat} {run : List Char} (hrun : Numeral width n run) (rest : List Char) :
        digits? width (run ++ rest) = some (n, rest) :=
      digits?_eq_some_iff.mpr ⟨run, hrun, rfl⟩
    have hafter (c : Char) (rest : List Char) : after? c (c :: rest) = some rest :=
      after?_eq_some_iff.mpr rfl
    obtain ⟨hdate, hhours, hminutes, hseconds⟩ := hcalendar
    simp only [ofText?, List.append_assoc, List.cons_append, Option.bind_eq_bind, hdigits hyear,
      hdigits hmonth, hdigits hday, hdigits hhour, hdigits hminute, hdigits hsecond, hafter,
      hfraction, hoffset, List.head?_cons, List.tail_cons, Option.bind_some]
    rw [if_neg (Nat.not_le_of_lt hseparator), if_pos ⟨hdate, hhours, hminutes, hseconds⟩]

end Written

/-- A text is read as a moment by its parts, its nanoseconds and the milliseconds in them. -/
theorem ofRfc3339?_eq_some_iff {text : String} {t : Timestamp} :
    ofRfc3339? text = some t ↔
      ∃ w nanos, Written.ofText? text.toList = some w ∧ w.nanosSince1970? = some nanos ∧
        FitsSigned (nanos.tdiv 1000000) ∧ t.millis.toInt = nanos.tdiv 1000000 := by
  simp only [ofRfc3339?, Option.bind_eq_bind, Option.bind_eq_some_iff, ofMillis?_eq_some_iff]
  constructor
  · intro h
    obtain ⟨w, hw, nanos, hnanos, hmillis⟩ := h
    exact ⟨w, nanos, hw, hnanos, hmillis⟩
  · intro h
    obtain ⟨w, nanos, hw, hnanos, hmillis⟩ := h
    exact ⟨w, hw, nanos, hnanos, hmillis⟩

end JobLedger.Timestamp
