import JobLedger.Time.Calendar
import JobLedger.Text.Decimal
import JobLedger.Word

/-!
# Timestamps

Moments are kept as whole milliseconds from the start of 1970, before or after it. The RFC 3339
form of a moment in the years 0000 to 9999 is its date and time in UTC, with a fraction of a second
only if there is one, without trailing zeros. Reading takes any offset from UTC; digits past the
millisecond are dropped from the count of nanoseconds since 1970, which moves a moment before 1970
forwards.
-/

namespace JobLedger

/-- A moment, in milliseconds from the start of 1970. -/
structure Timestamp where
  millis : Int64
  deriving DecidableEq, Repr

namespace Timestamp

open Time Text

/-- The moment a number of milliseconds from the start of 1970. -/
def ofMillis? (i : Int) : Option Timestamp := (int64? i).map Timestamp.mk

/-- The number of milliseconds as a numeral. -/
def text (t : Timestamp) : String := integer t.millis.toInt

/-- The last `width` decimal digits of a number. -/
def fixed (width n : Nat) : List Char :=
  match width with
  | 0 => []
  | width + 1 => fixed width (n / 10) ++ [(n % 10).digitChar]

/-- The fraction of a second in thousandths: nothing, or a point and digits that end in no zero. -/
def fraction (millis : Nat) : List Char :=
  if millis = 0 then []
  else if millis % 100 = 0 then '.' :: fixed 1 (millis / 100)
  else if millis % 10 = 0 then '.' :: fixed 2 (millis / 10)
  else '.' :: fixed 3 millis

/-- The number of milliseconds in a day. -/
def dayMillis : Nat := 86400000

/-- The first day count past the year 9999. -/
def dayLimit : Nat := 3652425

/-- The RFC 3339 form in UTC of the moment `n` milliseconds after the start of year 0. -/
def rfc3339OfYearZero (n : Nat) : List Char :=
  let date := Date.ofDayCount (n / dayMillis)
  let time := n % dayMillis
  fixed 4 date.year ++ '-' :: fixed 2 date.month ++ '-' :: fixed 2 date.day ++
    'T' :: fixed 2 (time / 3600000) ++ ':' :: fixed 2 (time / 60000 % 60) ++
    ':' :: fixed 2 (time / 1000 % 60) ++ fraction (time % 1000) ++ ['Z']

/-- The RFC 3339 form of a moment in UTC, if it lies in the years 0000 to 9999. -/
def rfc3339? (t : Timestamp) : Option String :=
  let n := t.millis.toInt + epochDay * dayMillis
  if 0 ≤ n ∧ n < dayLimit * dayMillis then some (String.ofList (rfc3339OfYearZero n.toNat))
  else none

/-- The number written by exactly `count` digits at the start of a text, and the rest. -/
def digits? (count : Nat) (text : List Char) : Option (Nat × List Char) :=
  let run := text.take count
  if run.length = count ∧ run.all Char.isDigit then
    some (Nat.ofDigitChars 10 run 0, text.drop count)
  else none

/-- The text behind a given first character. -/
def after? (c : Char) : List Char → Option (List Char)
  | [] => none
  | d :: rest => if d = c then some rest else none

/-- The nanoseconds written by the digits of a fraction; digits past the ninth have no weight. -/
def nanos (digits : List Char) : Nat :=
  Nat.ofDigitChars 10 ((digits ++ List.replicate 9 '0').take 9) 0

/-- The fraction of a second, in nanoseconds, at the start of a text, and the rest. -/
def fraction? (text : List Char) : Option (Nat × List Char) :=
  match text with
  | '.' :: rest =>
    let digits := rest.takeWhile Char.isDigit
    if digits.isEmpty then none else some (nanos digits, rest.dropWhile Char.isDigit)
  | _ => some (0, text)

/-- The offset from UTC, in minutes, that ends a text. -/
def offset? (text : List Char) : Option Int :=
  match text with
  | ['Z'] => some 0
  | ['z'] => some 0
  | sign :: rest => do
    let (hours, rest) ← digits? 2 rest
    let rest ← after? ':' rest
    let (minutes, rest) ← digits? 2 rest
    if hours ≤ 23 ∧ minutes ≤ 59 ∧ rest = [] then
      if sign = '+' then some (hours * 60 + minutes)
      else if sign = '-' then some (-(hours * 60 + minutes))
      else none
    else none
  | [] => none

/-- The parts of an RFC 3339 text as they are written. -/
structure Written where
  date : Date
  hour : Nat
  minute : Nat
  second : Nat
  /-- Nanoseconds past the second. -/
  nano : Nat
  /-- Offset from UTC in minutes. -/
  offset : Int
  deriving DecidableEq, Repr

namespace Written

/-- The parts of a text; one ASCII character of any kind parts the date from the time. -/
def ofText? (text : List Char) : Option Written := do
  let (year, text) ← digits? 4 text
  let text ← after? '-' text
  let (month, text) ← digits? 2 text
  let text ← after? '-' text
  let (day, text) ← digits? 2 text
  let separator ← text.head?
  if separator.toNat ≥ 128 then none
  let (hour, text) ← digits? 2 text.tail
  let text ← after? ':' text
  let (minute, text) ← digits? 2 text
  let text ← after? ':' text
  let (second, text) ← digits? 2 text
  let (nano, text) ← fraction? text
  let offset ← offset? text
  if (Date.mk year month day).Valid ∧ hour ≤ 23 ∧ minute ≤ 59 ∧ second ≤ 60 then
    some ⟨⟨year, month, day⟩, hour, minute, second, nano, offset⟩
  else none

/-- Seconds from the start of 1970 to the written moment, its fraction left out. -/
def seconds (w : Written) : Int :=
  ((w.date.dayCount : Int) - epochDay) * 86400 + w.hour * 3600 + w.minute * 60 + w.second -
    w.offset * 60

/-- The last second of a month in UTC, counted from the start of 1970: the next second begins a
first day of a month. A leap second follows such a second only. -/
def EndsMonth (seconds : Int) : Prop :=
  (seconds + 1) % 86400 = 0 ∧
    (Date.ofDayCount ((seconds + 1) / 86400 + epochDay).toNat).day = 1

instance (seconds : Int) : Decidable (EndsMonth seconds) :=
  inferInstanceAs (Decidable (_ ∧ _))

/-- Nanoseconds from the start of 1970 to the written moment. A leap second counts as the last
nanosecond before it. -/
def nanosSince1970? (w : Written) : Option Int :=
  if w.second = 60 then
    let stand := w.seconds - 1
    if EndsMonth stand then some (stand * 1000000000 + 999999999) else none
  else some (w.seconds * 1000000000 + w.nano)

end Written

/-- The moment that an RFC 3339 text writes. -/
def ofRfc3339? (text : String) : Option Timestamp := do
  let written ← Written.ofText? text.toList
  let nanos ← written.nanosSince1970?
  ofMillis? (nanos.tdiv 1000000)

end Timestamp

end JobLedger
