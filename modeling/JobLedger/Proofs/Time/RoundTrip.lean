import JobLedger.Proofs.Time.Calendar
import JobLedger.Proofs.Time.Reading

/-!
# Moments as texts and back

A moment has a text exactly if the date on which it falls in UTC is one of the years 0000 to 9999.
The text shows this date and the time of the day, and reading it gives the moment again, so that no
two moments share a text. The dates are those of the walk through the calendar day by day; how they
are computed from a count of milliseconds makes no part of what is said.
-/

namespace JobLedger.Timestamp

open Time

/-- A moment falls on a date in UTC: the date is as many days behind the first of January 1970, or
in front of it, as whole days have gone by since the start of 1970. -/
def FallsOn (t : Timestamp) (date : Date) : Prop :=
  ∃ day epoch : Nat, Date.met day = date ∧ Date.met epoch = ⟨1970, 1, 1⟩ ∧
    (day : Int) - epoch = t.millis.toInt / 86400000

/-! ## The days of the years 0000 to 9999 -/

/-- The n-th day that is met is the day of that number. -/
theorem dayCount_met (day : Nat) : (Date.met day).dayCount = day := by
  rw [← Date.ofDayCount_eq_met]
  exact (Date.valid_ofDayCount day).2

/-- The first of January 1970 is met on one day only. -/
theorem met_eq_epoch_iff (epoch : Nat) : Date.met epoch = ⟨1970, 1, 1⟩ ↔ epoch = epochDay := by
  constructor
  · intro h
    rw [← dayCount_met epoch, h]
    decide
  · intro h
    rw [h, ← Date.ofDayCount_eq_met]
    decide

/-- The days in front of the year 10000 are those of the years up to 9999. -/
theorem year_met_le_iff (day : Nat) : (Date.met day).year ≤ 9999 ↔ day < dayLimit := by
  have hlimit : daysBeforeYear 10000 = dayLimit := by decide
  obtain ⟨hbegin, hend⟩ := yearOfDay_bounds day
  have hyear : (Date.met day).year = yearOfDay day := by
    rw [← Date.ofDayCount_eq_met, Date.ofDayCount]
  rw [hyear]
  constructor
  · intro hle
    have hmono : daysBeforeYear (yearOfDay day + 1) ≤ daysBeforeYear 10000 :=
      daysBeforeYear_mono (Nat.succ_le_succ hle)
    omega
  · intro hlt
    apply Nat.le_of_not_lt
    intro hgt
    have hmono : daysBeforeYear 10000 ≤ daysBeforeYear (yearOfDay day) := daysBeforeYear_mono hgt
    omega

/-- The day on which a moment falls is counted from the start of year 0. -/
theorem fallsOn_iff (t : Timestamp) (date : Date) :
    t.FallsOn date ↔
      ∃ day : Nat, (day : Int) = (t.millis.toInt + epochDay * dayMillis) / dayMillis ∧
        Date.met day = date := by
  simp only [epochDay, dayMillis]
  constructor
  · intro h
    obtain ⟨day, epoch, hdate, hstart, hdays⟩ := h
    rw [met_eq_epoch_iff, epochDay] at hstart
    exact ⟨day, by omega, hdate⟩
  · intro h
    obtain ⟨day, hday, hdate⟩ := h
    exact ⟨day, 719528, hdate, (met_eq_epoch_iff 719528).mpr rfl, by omega⟩

/-- A moment falls on a date up to the year 9999 exactly if it lies in the days of these years. -/
theorem inYears_iff (t : Timestamp) :
    (∃ date, t.FallsOn date ∧ date.year ≤ 9999) ↔
      0 ≤ t.millis.toInt + epochDay * dayMillis ∧
        t.millis.toInt + epochDay * dayMillis < dayLimit * dayMillis := by
  constructor
  · intro h
    obtain ⟨date, hfalls, hyear⟩ := h
    obtain ⟨day, hday, hdate⟩ := (fallsOn_iff t date).mp hfalls
    rw [← hdate, year_met_le_iff] at hyear
    simp only [epochDay, dayMillis, dayLimit] at hday hyear ⊢
    omega
  · intro h
    obtain ⟨day, hday⟩ : ∃ day : Nat,
        (day : Int) = (t.millis.toInt + epochDay * dayMillis) / dayMillis :=
      ⟨_, Int.toNat_of_nonneg (Int.ediv_nonneg h.1 (by decide))⟩
    refine ⟨Date.met day, (fallsOn_iff t _).mpr ⟨day, hday, rfl⟩, (year_met_le_iff day).mpr ?_⟩
    simp only [epochDay, dayMillis, dayLimit] at h hday ⊢
    omega

/-! ## Reading what was written -/

namespace Written

/-- The date and the time of the day in UTC of the moment `n` milliseconds after the start of
year 0. -/
def ofYearZero (n : Nat) : Written where
  date := Date.ofDayCount (n / dayMillis)
  hour := n % dayMillis / 3600000
  minute := n % dayMillis / 60000 % 60
  second := n % dayMillis / 1000 % 60
  nano := n % dayMillis % 1000 * 1000000
  offset := 0

/-- A day counted from the year zero on is in the calendar. -/
theorem inCalendar_ofYearZero (n : Nat) : (ofYearZero n).InCalendar := by
  have hrest : n % dayMillis < 86400000 := Nat.mod_lt _ (by decide)
  refine ⟨(Date.valid_ofDayCount _).1, ?_, ?_, ?_⟩
  · change n % dayMillis / 3600000 ≤ 23
    omega
  · change n % dayMillis / 60000 % 60 ≤ 59
    omega
  · change n % dayMillis / 1000 % 60 ≤ 60
    omega

/-- A date and a time of the calendar are written in digits if the year has four of them. -/
theorem InCalendar.front_fixed {w : Written} (h : w.InCalendar) (hyear : w.date.year ≤ 9999) :
    w.Front (fixed 4 w.date.year ++ '-' :: (fixed 2 w.date.month ++ '-' :: (fixed 2 w.date.day ++
      'T' :: (fixed 2 w.hour ++ ':' :: (fixed 2 w.minute ++ ':' :: fixed 2 w.second))))) := by
  obtain ⟨⟨_, hmonth, _, hday⟩, hhour, hminute, hsecond⟩ := h
  have hlength := Date.daysInMonth_le w.date.year w.date.month
  have hfour : places 4 = 10000 := rfl
  have htwo : places 2 = 100 := rfl
  exact .intro (numeral_fixed (by omega)) (numeral_fixed (by omega)) (numeral_fixed (by omega))
    (by decide) (numeral_fixed (by omega)) (numeral_fixed (by omega)) (numeral_fixed (by omega))

/-- The text of a moment is read as its date and time in UTC. -/
theorem ofText?_rfc3339OfYearZero {n : Nat} (h : n < dayLimit * dayMillis) :
    ofText? (rfc3339OfYearZero n) = some (ofYearZero n) := by
  have hday : n / dayMillis < dayLimit := Nat.div_lt_of_lt_mul (Nat.mul_comm _ _ ▸ h)
  have hyear : (ofYearZero n).date.year ≤ 9999 := by
    rw [ofYearZero, Date.ofDayCount_eq_met, year_met_le_iff]
    exact hday
  have hcalendar := inCalendar_ofYearZero n
  have hfraction := fraction?_fraction (Nat.mod_lt (n % dayMillis) (by decide : 0 < 1000))
  have hread := ofText?_append hcalendar (hcalendar.front_fixed hyear) hfraction rfl
  simpa only [rfc3339OfYearZero, ofYearZero, List.append_assoc, List.cons_append] using hread

/-- The date and time in UTC of a moment are its milliseconds since 1970. -/
theorem nanosSince1970?_ofYearZero (n : Nat) :
    (ofYearZero n).nanosSince1970? = some (((n : Int) - epochDay * dayMillis) * 1000000) := by
  have hsecond : (ofYearZero n).second ≠ 60 :=
    Nat.ne_of_lt (Nat.mod_lt (n % dayMillis / 1000) (by decide))
  have hdate (day : Nat) : (Date.ofDayCount day).dayCount = day := (Date.valid_ofDayCount day).2
  rw [nanosSince1970?, if_neg hsecond, Option.some.injEq]
  simp only [seconds, ofYearZero, hdate, epochDay, dayMillis]
  omega

end Written

/-- A text is that of the milliseconds since the start of year 0. -/
theorem rfc3339?_eq_some_iff {t : Timestamp} {text : String} :
    t.rfc3339? = some text ↔
      ∃ n : Nat, (n : Int) = t.millis.toInt + epochDay * dayMillis ∧ n < dayLimit * dayMillis ∧
        text = String.ofList (rfc3339OfYearZero n) := by
  simp only [rfc3339?]
  constructor
  · intro h
    split at h
    · next hyears =>
      obtain ⟨hbegin, hend⟩ := hyears
      exact ⟨_, Int.toNat_of_nonneg hbegin, by omega, (Option.some.inj h).symm⟩
    · exact nomatch h
  · intro h
    obtain ⟨n, hn, hlimit, htext⟩ := h
    rw [← hn, if_pos (by omega), Int.toNat_natCast, htext]

/-- The text of a moment is read as this moment. -/
theorem ofRfc3339?_of_rfc3339? {t : Timestamp} {text : String} (h : t.rfc3339? = some text) :
    ofRfc3339? text = some t := by
  obtain ⟨n, hn, hlimit, htext⟩ := rfc3339?_eq_some_iff.mp h
  have hmillis : (n : Int) - epochDay * dayMillis = t.millis.toInt := by omega
  have hread : Written.ofText? text.toList = some (Written.ofYearZero n) := by
    rw [htext, String.toList_ofList, Written.ofText?_rfc3339OfYearZero hlimit]
  refine ofRfc3339?_eq_some_iff.mpr ⟨_, _, hread, Written.nanosSince1970?_ofYearZero n, ?_⟩
  rw [Int.mul_tdiv_cancel _ (by decide), hmillis]
  exact ⟨fitsSigned_toInt t.millis, rfl⟩

/-- A text shows the date of a moment in UTC. -/
def ShowsDate (t : Timestamp) (text : String) : Prop :=
  ∃ w, Written.ofText? text.toList = some w ∧ w.offset = 0 ∧ t.FallsOn w.date

/-- The text of a time shows its date. -/
theorem showsDate_of_rfc3339? {t : Timestamp} {text : String} (h : t.rfc3339? = some text) :
    t.ShowsDate text := by
  obtain ⟨n, hn, hlimit, htext⟩ := rfc3339?_eq_some_iff.mp h
  have hread := Written.ofText?_rfc3339OfYearZero hlimit
  have hday : ((n / dayMillis : Nat) : Int) =
      (t.millis.toInt + epochDay * dayMillis) / dayMillis := by
    rw [← hn]
    exact Int.natCast_ediv n dayMillis
  refine ⟨Written.ofYearZero n, ?_, rfl, (fallsOn_iff t _).mpr ⟨n / dayMillis, hday, ?_⟩⟩
  · rw [htext, String.toList_ofList, hread]
  · exact (Date.ofDayCount_eq_met _).symm

/-- A moment has a text exactly if it falls on a date of the years 0000 to 9999 in UTC. The text
shows this date, and reading it gives the moment again, so that no other moment has this text. -/
theorem rfc3339_roundTrips (t : Timestamp) :
    ((∃ text, t.rfc3339? = some text) ↔ ∃ date, t.FallsOn date ∧ date.year ≤ 9999) ∧
      ∀ text, t.rfc3339? = some text →
        t.ShowsDate text ∧ ofRfc3339? text = some t ∧
          ∀ t' : Timestamp, t'.rfc3339? = some text → t' = t := by
  refine ⟨?_, ?_⟩
  · rw [inYears_iff]
    constructor
    · intro h
      obtain ⟨text, htext⟩ := h
      obtain ⟨n, hn, hlimit, -⟩ := rfc3339?_eq_some_iff.mp htext
      omega
    · intro h
      exact ⟨_, if_pos h⟩
  · intro text htext
    have hread := ofRfc3339?_of_rfc3339? htext
    refine ⟨showsDate_of_rfc3339? htext, hread, ?_⟩
    intro t' htext'
    rw [ofRfc3339?_of_rfc3339? htext'] at hread
    exact Option.some.inj hread

/-- A quarter of a second on a leap day before 1970, its zero at the end left out. -/
theorem rfc3339_leapDay :
    (Timestamp.mk (-58015799750)).rfc3339? = some "1968-02-29T12:30:00.25Z" ∧
      ofRfc3339? "1968-02-29T12:30:00.25Z" = some (Timestamp.mk (-58015799750)) := by
  have htext : (Timestamp.mk (-58015799750)).rfc3339? = some "1968-02-29T12:30:00.25Z" := by decide
  exact ⟨htext, ((rfc3339_roundTrips (Timestamp.mk (-58015799750))).2 _ htext).2.1⟩

end JobLedger.Timestamp
