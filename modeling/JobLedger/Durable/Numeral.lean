import JobLedger.Durable.Cell
import JobLedger.Text.Decimal

/-!
# Numerals

The texts that a column for numbers takes for numbers. Digits alone write an integer, as long as it
fits in 64 bits. Any other numeral, with a point or an exponent or with too many digits, stands for
the nearest number of double precision, which is a whole number again where it has no fraction.

Of a long numeral only the leading digits count, about nineteen of them; the digits behind them in
front of the point count as places.
-/

namespace JobLedger

open Text

/-! ## Double precision -/

namespace DoublePrecision

/-- The first number that has more than 53 binary digits. -/
def significandLimit : Nat := 9007199254740992

/-- The smallest power of two that a number can be a multiple of. -/
def leastPlace : Int := -1074

/-- The power of two that no number reaches. -/
def topPlace : Int := 1024

/-- The numerator and the denominator of a ratio counted in units of a power of two. -/
def inUnits (numerator denominator : Nat) (place : Int) : Nat × Nat :=
  (numerator * Nat.pow 2 (-place).toNat, denominator * Nat.pow 2 place.toNat)

/-- The power of two that the number nearest to a ratio is a multiple of: its 53 binary digits reach
down to there. -/
def lastPlace (numerator denominator : Nat) : Int :=
  let low := max ((numerator.log2 : Int) - denominator.log2 - 53) leastPlace
  let (n, d) := inUnits numerator denominator low
  if n / d < significandLimit then low else low + 1

/-- The whole number nearest to a ratio; between two of them the even one. -/
def nearestWhole (numerator denominator : Nat) : Nat :=
  let whole := numerator / denominator
  let rest := 2 * (numerator % denominator)
  if denominator < rest ∨ (rest = denominator ∧ whole % 2 = 1) then whole + 1 else whole

/-- The number nearest to a ratio. Beyond the largest number stands one that takes the place of an
infinite one. -/
def nearest (numerator denominator : Nat) : Dyadic :=
  let place := lastPlace numerator denominator
  let (n, d) := inUnits numerator denominator place
  let number := Dyadic.ofIntWithPrec (nearestWhole n d) (-place)
  let beyond := Dyadic.ofIntWithPrec 1 (-topPlace)
  if number ≤ beyond then number else beyond

/-- The integer that a number is. -/
def whole? : Dyadic → Option Int
  | .zero => some 0
  | .ofOdd n places _ => if places ≤ 0 then some (n * (Nat.pow 2 (-places).toNat : Int)) else none

end DoublePrecision

/-! ## Reading numerals -/

/-- A numeral as it was read. -/
structure Numeral where
  negative : Bool
  /-- The number of the leading digits. -/
  leading : Nat
  /-- The power of ten that the leading digits are a multiple of. -/
  place : Int
  /-- The integer, where nothing but digits was written. -/
  exact : Option Int
  deriving DecidableEq, Repr

namespace Numeral

/-- Further digits count as long as the number of those before them is below this bound. -/
def leadingBound : Nat := 1844674407370955160

/-- The leading digits and their place after a digit in front of the point. -/
def pushWhole (read : Nat × Int) (digit : Char) : Nat × Int :=
  if read.1 < leadingBound then (Nat.ofDigitChars 10 [digit] read.1, read.2)
  else (read.1, read.2 + 1)

/-- The leading digits and their place after a digit behind the point. -/
def pushFraction (read : Nat × Int) (digit : Char) : Nat × Int :=
  if read.1 < leadingBound then (Nat.ofDigitChars 10 [digit] read.1, read.2 - 1) else read

/-- The exponent that ends a numeral, zero if there is none. -/
def exponent? : List Char → Option Int
  | [] => some 0
  | c :: rest =>
    if c = 'e' ∨ c = 'E' then
      match rest with
      | '-' :: digits => (decimal? digits).map fun n => -(n : Int)
      | '+' :: digits => (decimal? digits).map Int.ofNat
      | digits => (decimal? digits).map Int.ofNat
    else none

/-- The numeral that a text without a sign writes: digits, a point among them if there is a
fraction, and an exponent. -/
def unsigned? (negative : Bool) (text : List Char) : Option Numeral := do
  let whole := text.takeWhile Char.isDigit
  let behind := text.dropWhile Char.isDigit
  let (fraction, rest) := match behind with
    | '.' :: rest => (rest.takeWhile Char.isDigit, rest.dropWhile Char.isDigit)
    | rest => ([], rest)
  let exponent ← exponent? rest
  if (whole ++ fraction).isEmpty then none
  else
    let (leading, place) := fraction.foldl pushFraction (whole.foldl pushWhole (0, 0))
    let i := (Nat.ofDigitChars 10 whole 0 : Int)
    some ⟨negative, leading, place + exponent,
      if behind.isEmpty then some (if negative then -i else i) else none⟩

/-- The character may stand in front of a numeral and behind it. -/
def isPadding (c : Char) : Bool := c = ' ' || (9 ≤ c.toNat && c.toNat ≤ 13)

/-- The numeral that a text writes. -/
def ofText? (text : String) : Option Numeral :=
  let padded := text.toList.dropWhile isPadding
  match (padded.reverse.dropWhile isPadding).reverse with
  | '-' :: rest => unsigned? true rest
  | '+' :: rest => unsigned? false rest
  | rest => unsigned? false rest

/-- The place beyond which every number is too large, and before which every number is too small. -/
def placeLimit : Int := 400

/-- The number of double precision nearest to a numeral. -/
def nearest (n : Numeral) : Dyadic :=
  let magnitude :=
    if n.leading = 0 ∨ n.place < -placeLimit then Dyadic.zero
    else
      let place := min n.place placeLimit
      DoublePrecision.nearest (n.leading * Nat.pow 10 place.toNat) (Nat.pow 10 (-place).toNat)
  if n.negative then -magnitude else magnitude

/-- The cell of a number of double precision. The two outermost integers of 64 bits are not taken
for integers. -/
def cellOf (x : Dyadic) : Cell :=
  match DoublePrecision.whole? x with
  | some i => if -signedLimit < i ∧ i < signedLimit - 1 then .int i else .real x
  | none => .real x

/-- The cell of the number that a numeral writes. -/
def cell (n : Numeral) : Cell :=
  match n.exact with
  | some i => if FitsSigned i then .int i else cellOf n.nearest
  | none => cellOf n.nearest

end Numeral

end JobLedger
