import JobLedger.Time.Calendar

/-!
# Days and dates

A count of days and a date determine each other: the date of a count is one of the calendar, and its
count is the number that it was made of. The count goes up by one from each date to the next one of
the calendar, which knows of nothing but the lengths of months, so that the dates of the counts are
those that are met on the way from the first of January of year 0.
-/

namespace JobLedger.Time

/-! ## Years -/

/-- The number of days of a year. -/
def yearLength (year : Nat) : Nat := if isLeap year then 366 else 365

/-- Every fourth year is a leap year, but of the full centuries only every fourth. -/
theorem isLeap_iff (year : Nat) :
    isLeap year = true ↔ year % 4 = 0 ∧ (year % 100 ≠ 0 ∨ year % 400 = 0) := by
  simp [isLeap]

/-- The multiples of a number below the next one: there is one more if this one is a multiple. -/
theorem ceil_succ {k : Nat} (hk : 0 < k) (n : Nat) :
    (n + 1 + (k - 1)) / k = (n + (k - 1)) / k + if n % k = 0 then 1 else 0 := by
  have hsum : n + 1 + (k - 1) = n + k := by omega
  have hdecomposed : n + (k - 1) = k * (n / k) + (n % k + (k - 1)) := by
    have hn := Nat.div_add_mod n k
    omega
  have hsmall : n % k < k := Nat.mod_lt n hk
  rw [hsum, Nat.add_div_right n hk, hdecomposed, Nat.mul_add_div hk]
  split
  · next hzero =>
    have hquotient : (n % k + (k - 1)) / k = 0 := Nat.div_eq_of_lt (by omega)
    rw [hquotient]
  · next hrest =>
    have hquotient : (n % k + (k - 1)) / k = 1 :=
      Nat.div_eq_of_lt_le (by omega) (by omega)
    rw [hquotient]

/-- A year has a day more than the common ones for each fourth year, but not for each hundredth,
and again for each four hundredth. -/
theorem yearLength_eq (year : Nat) :
    yearLength year + (if year % 100 = 0 then 1 else 0) =
      365 + (if year % 4 = 0 then 1 else 0) + if year % 400 = 0 then 1 else 0 := by
  have hfour : year % 100 = 0 → year % 4 = 0 := by omega
  have hcentury : year % 400 = 0 → year % 100 = 0 := by omega
  simp only [yearLength, isLeap_iff]
  by_cases h400 : year % 400 = 0
  · simp [h400, hcentury h400, hfour (hcentury h400)]
  · by_cases h100 : year % 100 = 0
    · simp [h400, h100, hfour h100]
    · by_cases h4 : year % 4 = 0
      · simp [h400, h100, h4]
      · simp [h400, h100, h4]

/-- A year ends where the next one begins. -/
theorem daysBeforeYear_succ (year : Nat) :
    daysBeforeYear (year + 1) = daysBeforeYear year + yearLength year := by
  have hfour : (year + 1 + 3) / 4 = (year + 3) / 4 + if year % 4 = 0 then 1 else 0 :=
    ceil_succ (Nat.succ_pos _) year
  have hcentury : (year + 1 + 99) / 100 = (year + 99) / 100 + if year % 100 = 0 then 1 else 0 :=
    ceil_succ (Nat.succ_pos _) year
  have hfourth : (year + 1 + 399) / 400 = (year + 399) / 400 + if year % 400 = 0 then 1 else 0 :=
    ceil_succ (Nat.succ_pos _) year
  have hlength := yearLength_eq year
  have hcommon : (if year % 100 = 0 then 1 else 0) ≤ 1 := by split <;> decide
  have hroom : (year + 99) / 100 ≤ 365 * year := by omega
  rw [daysBeforeYear, daysBeforeYear, hfour, hcentury, hfourth]
  generalize (year + 99) / 100 = centuries at hroom ⊢
  omega

/-- Later years have at least as many days before them. -/
theorem daysBeforeYear_mono {a b : Nat} (h : a ≤ b) : daysBeforeYear a ≤ daysBeforeYear b := by
  induction h with
  | refl => exact Nat.le_refl _
  | step _ ih =>
    rw [daysBeforeYear_succ]
    omega

/-- A day lies in the year that it is said to lie in. -/
theorem yearOfDay_bounds (days : Nat) :
    daysBeforeYear (yearOfDay days) ≤ days ∧ days < daysBeforeYear (yearOfDay days + 1) := by
  -- The guess is never more than a year off.
  have hlow : daysBeforeYear (400 * days / 146097 - 1) ≤ days := by
    rw [daysBeforeYear]
    omega
  have hhigh : days < daysBeforeYear (400 * days / 146097 + 1 + 1) := by
    rw [daysBeforeYear]
    omega
  rw [yearOfDay]
  split
  · next hnext => exact ⟨hnext, hhigh⟩
  · next hnext =>
    split
    · next hguess => exact ⟨hguess, Nat.lt_of_not_le hnext⟩
    · next hguess =>
      have hpos : 400 * days / 146097 - 1 + 1 = 400 * days / 146097 := by
        have hzero : daysBeforeYear 0 = 0 := rfl
        have hne : 400 * days / 146097 ≠ 0 := fun heq => hguess (by rw [heq, hzero]; omega)
        omega
      rw [hpos]
      exact ⟨hlow, Nat.lt_of_not_le hguess⟩

/-- A day lies in no other year. -/
theorem yearOfDay_eq {year days : Nat} (hlow : daysBeforeYear year ≤ days)
    (hhigh : days < daysBeforeYear (year + 1)) : yearOfDay days = year := by
  obtain ⟨hbegin, hend⟩ := yearOfDay_bounds days
  rcases Nat.lt_trichotomy (yearOfDay days) year with hlt | heq | hgt
  · have hle : daysBeforeYear (yearOfDay days + 1) ≤ daysBeforeYear year := daysBeforeYear_mono hlt
    omega
  · exact heq
  · have hle : daysBeforeYear (year + 1) ≤ daysBeforeYear (yearOfDay days) :=
      daysBeforeYear_mono hgt
    omega

/-! ## Months -/

/-- The number of days of several months. -/
def totalDays (lengths : List Nat) : Nat := lengths.foldl (· + ·) 0

/-- Months in two groups have the days of both. -/
theorem totalDays_append (before behind : List Nat) :
    totalDays (before ++ behind) = totalDays before + totalDays behind := by
  have hstart (start : Nat) (lengths : List Nat) :
      lengths.foldl (· + ·) start = start + totalDays lengths := by
    induction lengths generalizing start with
    | nil => rfl
    | cons length rest ih =>
      rw [totalDays, List.foldl_cons, List.foldl_cons, ih, ih (0 + length)]
      omega
  rw [totalDays, List.foldl_append, hstart]
  rfl

/-- Months have the days of the first one and of the rest. -/
theorem totalDays_cons (length : Nat) (rest : List Nat) :
    totalDays (length :: rest) = length + totalDays rest := by
  have hsplit := totalDays_append [length] rest
  have hone : totalDays [length] = length := Nat.zero_add length
  rwa [hone] at hsplit

/-- Up to the end of a month there are as many days more as it has. -/
theorem totalDays_take_succ (lengths : List Nat) (i : Nat) :
    totalDays (lengths.take (i + 1)) = totalDays (lengths.take i) + lengths[i]?.getD 0 := by
  rw [List.take_add_one, totalDays_append]
  cases lengths[i]? with
  | none => rfl
  | some length => exact congrArg _ (Nat.zero_add length)

/-- A day is found in the month in front of the end of which it lies. -/
theorem monthAndDay_eq {lengths : List Nat} {i days : Nat} (month : Nat)
    (hlow : totalDays (lengths.take i) ≤ days) (hhigh : days < totalDays (lengths.take (i + 1))) :
    monthAndDay month lengths days = (month + i, days - totalDays (lengths.take i) + 1) := by
  induction lengths generalizing month i days with
  | nil => exact absurd hhigh (Nat.not_lt_zero _)
  | cons length rest ih =>
    rw [List.take_succ_cons, totalDays_cons] at hhigh
    cases i with
    | zero =>
      have hfirst : days < length := by simpa [totalDays] using hhigh
      rw [monthAndDay, if_pos hfirst]
      rfl
    | succ i =>
      rw [List.take_succ_cons, totalDays_cons] at hlow ⊢
      have hlater : ¬ days < length := by omega
      have hinside : totalDays (rest.take i) ≤ days - length ∧
          days - length < totalDays (rest.take (i + 1)) := by omega
      have hrest := ih (month + 1) hinside.1 hinside.2
      have hmonth : month + 1 + i = month + (i + 1) := by omega
      have hday : days - length - totalDays (rest.take i) =
          days - (length + totalDays (rest.take i)) := by omega
      rw [monthAndDay, if_neg hlater, hrest, hmonth, hday]

/-- A day in front of the end of all months lies in one of them. -/
theorem exists_month {lengths : List Nat} {days : Nat} (h : days < totalDays lengths) :
    ∃ i < lengths.length, totalDays (lengths.take i) ≤ days ∧
      days < totalDays (lengths.take (i + 1)) := by
  induction lengths generalizing days with
  | nil => exact absurd h (Nat.not_lt_zero _)
  | cons length rest ih =>
    rw [totalDays_cons] at h
    by_cases hfirst : days < length
    · refine ⟨0, Nat.succ_pos _, Nat.zero_le _, ?_⟩
      rw [List.take_succ_cons, totalDays_cons]
      omega
    · have hinside : days - length < totalDays rest := by omega
      obtain ⟨i, hi, hlow, hhigh⟩ := ih hinside
      refine ⟨i + 1, Nat.succ_lt_succ hi, ?_, ?_⟩
      · rw [List.take_succ_cons, totalDays_cons]
        omega
      · rw [List.take_succ_cons, totalDays_cons]
        omega

/-- A year has twelve months. -/
theorem length_monthLengths (leap : Bool) : (monthLengths leap).length = 12 := rfl

/-- The months make up the year. -/
theorem totalDays_monthLengths (year : Nat) :
    totalDays (monthLengths (isLeap year)) = yearLength year := by
  rw [yearLength]
  cases isLeap year <;> rfl

/-- A month ends where the next one begins. -/
theorem daysBeforeMonth_succ (year : Nat) {month : Nat} (h : month ≠ 0) :
    daysBeforeMonth (isLeap year) (month + 1) =
      daysBeforeMonth (isLeap year) month + daysInMonth year month := by
  obtain ⟨i, rfl⟩ := Nat.exists_eq_succ_of_ne_zero h
  exact totalDays_take_succ (monthLengths (isLeap year)) i

/-- The last month ends with the year. -/
theorem daysBeforeMonth_thirteen (year : Nat) :
    daysBeforeMonth (isLeap year) 13 = yearLength year :=
  totalDays_monthLengths year

/-- Later months have at least as many days before them. -/
theorem daysBeforeMonth_mono (leap : Bool) {a b : Nat} (h : a ≤ b) :
    daysBeforeMonth leap a ≤ daysBeforeMonth leap b := by
  obtain ⟨k, rfl⟩ := Nat.exists_eq_add_of_le h
  have hsplit := List.take_add (l := monthLengths leap) (i := a - 1) (j := a + k - 1 - (a - 1))
  have hend : a - 1 + (a + k - 1 - (a - 1)) = a + k - 1 := by omega
  have htotal := congrArg totalDays hsplit
  rw [hend, totalDays_append] at htotal
  change totalDays _ ≤ totalDays _
  omega

/-- A day of the year is found in the month in which it lies. -/
theorem monthAndDay_monthLengths {leap : Bool} {month days : Nat} (hmonth : 1 ≤ month)
    (hlow : daysBeforeMonth leap month ≤ days) (hhigh : days < daysBeforeMonth leap (month + 1)) :
    monthAndDay 1 (monthLengths leap) days =
      (month, days - daysBeforeMonth leap month + 1) := by
  obtain ⟨i, rfl⟩ := Nat.exists_eq_add_of_le' hmonth
  have hfound := monthAndDay_eq 1 hlow hhigh
  rwa [Nat.add_comm 1] at hfound

/-- A day of the year lies in a month. -/
theorem exists_monthOfYear {year days : Nat} (h : days < yearLength year) :
    ∃ month, 1 ≤ month ∧ month ≤ 12 ∧ daysBeforeMonth (isLeap year) month ≤ days ∧
      days < daysBeforeMonth (isLeap year) (month + 1) := by
  rw [← totalDays_monthLengths] at h
  obtain ⟨i, hi, hlow, hhigh⟩ := exists_month h
  exact ⟨i + 1, Nat.succ_pos i, hi, hlow, hhigh⟩

/-! ## Dates -/

namespace Date

variable {date : Date}

/-- A date lies in its year. -/
theorem Valid.dayCount_lt (h : date.Valid) : date.dayCount < daysBeforeYear (date.year + 1) := by
  obtain ⟨hmonth, hmonths, hday, hdays⟩ := h
  have hnext := daysBeforeMonth_succ date.year (Nat.ne_of_gt hmonth)
  have hlast : daysBeforeMonth (isLeap date.year) (date.month + 1) ≤ yearLength date.year :=
    daysBeforeMonth_thirteen date.year ▸ daysBeforeMonth_mono _ (Nat.succ_le_succ hmonths)
  rw [daysBeforeYear_succ, dayCount]
  omega

/-- The date of a count is one of the calendar, and has this count. -/
theorem valid_ofDayCount (days : Nat) :
    (ofDayCount days).Valid ∧ (ofDayCount days).dayCount = days := by
  obtain ⟨hbegin, hend⟩ := yearOfDay_bounds days
  rw [daysBeforeYear_succ] at hend
  have hinside : days - daysBeforeYear (yearOfDay days) < yearLength (yearOfDay days) := by omega
  obtain ⟨month, hmonth, hmonths, hlow, hhigh⟩ := exists_monthOfYear hinside
  have hdate : ofDayCount days = ⟨yearOfDay days, month,
      days - daysBeforeYear (yearOfDay days) -
        daysBeforeMonth (isLeap (yearOfDay days)) month + 1⟩ := by
    rw [ofDayCount, monthAndDay_monthLengths hmonth hlow hhigh]
  rw [daysBeforeMonth_succ _ (Nat.ne_of_gt hmonth)] at hhigh
  rw [hdate]
  refine ⟨⟨hmonth, hmonths, Nat.le_add_left 1 _, ?_⟩, ?_⟩
  · dsimp only
    omega
  · rw [dayCount]
    dsimp only
    omega

/-- A date of the calendar is the one of its count. -/
theorem Valid.ofDayCount_dayCount (h : date.Valid) : ofDayCount date.dayCount = date := by
  have hend := h.dayCount_lt
  obtain ⟨hmonth, hmonths, hday, hdays⟩ := h
  have hnext := daysBeforeMonth_succ date.year (Nat.ne_of_gt hmonth)
  have hbegin : daysBeforeYear date.year ≤ date.dayCount := by
    rw [dayCount]
    omega
  have hyear : yearOfDay date.dayCount = date.year := yearOfDay_eq hbegin hend
  have hrest : date.dayCount - daysBeforeYear date.year =
      daysBeforeMonth (isLeap date.year) date.month + (date.day - 1) := by
    rw [dayCount]
    omega
  have hfound : monthAndDay 1 (monthLengths (isLeap date.year))
      (date.dayCount - daysBeforeYear date.year) = (date.month, date.day) := by
    rw [monthAndDay_monthLengths hmonth (by omega) (by omega), Prod.mk.injEq]
    omega
  rw [ofDayCount, hyear, hfound]

/-- The day after a date: the next one of its month, else the first one of the next month. -/
def next (date : Date) : Date :=
  if date.day < daysInMonth date.year date.month then { date with day := date.day + 1 }
  else if date.month < 12 then ⟨date.year, date.month + 1, 1⟩
  else ⟨date.year + 1, 1, 1⟩

/-- Every month has a first day. -/
theorem daysInMonth_pos {year month : Nat} (hmonth : 1 ≤ month) (hmonths : month ≤ 12) :
    1 ≤ daysInMonth year month := by
  have hlengths : ∀ leap, ∀ length ∈ monthLengths leap, 1 ≤ length := by decide
  have hindex : month - 1 < (monthLengths (isLeap year)).length := by
    rw [length_monthLengths]
    omega
  rw [daysInMonth, if_neg (Nat.ne_of_gt hmonth), List.getElem?_eq_getElem hindex]
  exact hlengths _ _ (List.getElem_mem hindex)

/-- No month has more than 31 days. -/
theorem daysInMonth_le (year month : Nat) : daysInMonth year month ≤ 31 := by
  have hlengths : ∀ leap, ∀ length ∈ monthLengths leap, length ≤ 31 := by decide
  rw [daysInMonth]
  split
  · exact Nat.zero_le _
  · cases hlength : (monthLengths (isLeap year))[month - 1]? with
    | none => exact Nat.zero_le _
    | some length => exact hlengths _ length (List.mem_of_getElem? hlength)

/-- The day after a date of the calendar is one of the calendar, and has the next count. -/
theorem Valid.next (h : date.Valid) : date.next.Valid ∧ date.next.dayCount = date.dayCount + 1 := by
  obtain ⟨hmonth, hmonths, hday, hdays⟩ := h
  have hend := daysBeforeMonth_succ date.year (Nat.ne_of_gt hmonth)
  rw [Date.next]
  split
  · next hinside =>
    refine ⟨⟨hmonth, hmonths, Nat.succ_pos _, hinside⟩, ?_⟩
    rw [dayCount, dayCount]
    dsimp only
    omega
  · next hlast =>
    split
    · next hmore =>
      refine ⟨⟨Nat.succ_pos _, hmore, Nat.le_refl 1, daysInMonth_pos (Nat.succ_pos _) hmore⟩, ?_⟩
      rw [dayCount, dayCount]
      dsimp only
      omega
    · next hdecember =>
      have htwelve : date.month = 12 := by omega
      rw [htwelve, daysBeforeMonth_thirteen] at hend
      have hfirst : 1 ≤ daysInMonth (date.year + 1) 1 :=
        daysInMonth_pos (Nat.le_refl 1) (Nat.le_add_left 1 11)
      refine ⟨⟨Nat.le_refl 1, Nat.le_add_left 1 11, Nat.le_refl 1, hfirst⟩, ?_⟩
      have hjanuary : daysBeforeMonth (isLeap (date.year + 1)) 1 = 0 := rfl
      rw [htwelve] at hlast hdays
      rw [dayCount, dayCount, daysBeforeYear_succ, htwelve, hjanuary]
      dsimp only
      omega

/-- The date that is met after some days on the way from the first of January of year 0. -/
def met : Nat → Date
  | 0 => ⟨0, 1, 1⟩
  | days + 1 => (met days).next

/-- The date of a count is the one that is met after as many days. -/
theorem ofDayCount_eq_met (days : Nat) : ofDayCount days = met days := by
  suffices hmet : (met days).Valid ∧ (met days).dayCount = days by
    rw [← hmet.1.ofDayCount_dayCount, hmet.2]
  induction days with
  | zero => decide
  | succ days ih =>
    obtain ⟨hvalid, hcount⟩ := ih.1.next
    exact ⟨hvalid, hcount.trans (congrArg _ ih.2)⟩

end Date

end JobLedger.Time
