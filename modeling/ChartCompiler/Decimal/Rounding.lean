/-!
# Binary fractions and decimal fractions

* `Decimal` — `digits · 10 ^ exponent`; `Dyadic` — `significand · 2 ^ exponent`.
* `Dyadic.ofFloat?` — the exact value of a float's magnitude, when it is finite and not zero.
* `Decimal.toFloat` — **the nearest float**, a tie going to the even significand; a decimal beyond
  the largest float gives infinity.
* `Decimal.Interval.ofDyadic` — the reals that read back as a given float: half a unit on either
  side, a quarter below a power of two, the ends belonging to it when its significand is even.
* `Decimal.shortest` — **the shortest decimal that reads back**: the nearest point of the coarsest
  decimal grid that meets this interval, a tie going as told.
-/

namespace ChartCompiler

/-- `digits · 10 ^ exponent`. -/
structure Decimal where
  digits : Nat
  exponent : Int
deriving DecidableEq, Repr

/-- `significand · 2 ^ exponent`. -/
structure Dyadic where
  significand : Nat
  exponent : Int
deriving DecidableEq, Repr

namespace Dyadic

/-- The significands of normal floats begin here; the bits below are the fraction. -/
def fractionUnit : Nat := Nat.pow 2 52

/-- The exponent of the smallest floats. -/
def leastExponent : Int := -1074

/-- **The magnitude of a float**, when it is finite and not zero. -/
def ofFloat? (x : Float) : Option Dyadic :=
  let bits : Nat := x.toBits.toNat
  let fraction : Nat := bits % fractionUnit
  let biased : Nat := bits / fractionUnit % 2048
  if biased = 2047 then none
  else if biased = 0 then
    if fraction = 0 then none else some ⟨fraction, leastExponent⟩
  else some ⟨fractionUnit + fraction, leastExponent + biased - 1⟩

/-- Whether a float carries a minus sign; minus zero does. -/
def isNegative (x : Float) : Bool := x.toBits.toNat / Nat.pow 2 63 = 1

end Dyadic

namespace Decimal

/-! ## Reading -/

/-- The quotient rounded to the nearest integer, a tie going to the even one. -/
def divNearestEven (num den : Nat) : Nat :=
  let q := num / den
  let r := num % den
  if 2 * r < den then q
  else if den < 2 * r then q + 1
  else if q % 2 = 0 then q else q + 1

/-- The bits of the float nearest to `num / den`, both positive. The exponent is chosen so that the
rounded quotient fills the fraction; a quotient that rounds up to the next power of two carries into
the exponent field by itself. -/
def nearestBits (num den : Nat) : Nat :=
  let guess : Int := (num.log2 : Int) - den.log2 - 53
  let top (e : Int) : Nat := num * Nat.pow 2 (-e).toNat
  let bottom (e : Int) : Nat := den * Nat.pow 2 e.toNat
  let tight (e : Int) : Bool := top e < 2 * Dyadic.fractionUnit * bottom e
  let e := max (if tight guess then guess else guess + 1) Dyadic.leastExponent
  (e - Dyadic.leastExponent).toNat * Dyadic.fractionUnit + divNearestEven (top e) (bottom e)

/-- The bits of positive infinity; finite magnitudes lie below. -/
def infinityBits : Nat := 0x7ff * Dyadic.fractionUnit

/-- **The nearest float** to a decimal. Decimals far outside the range of floats are settled by
their order of magnitude. -/
def toFloat (d : Decimal) : Float :=
  let magnitude : Int := (Nat.toDigits 10 d.digits).length + d.exponent
  if d.digits = 0 ∨ magnitude < -400 then Float.ofBits 0
  else if 400 < magnitude then Float.ofBits (UInt64.ofNat infinityBits)
  else
    Float.ofBits <| UInt64.ofNat <| min infinityBits <|
      nearestBits (d.digits * Nat.pow 10 d.exponent.toNat) (Nat.pow 10 (-d.exponent).toNat)

/-! ## Writing -/

/-- Which way a decimal halfway between two grid points goes. -/
inductive Tie
  | toEven
  | up
deriving DecidableEq, Repr

/-- **The reals that read back as one float**, in units of `1 / unit`: everything between `low` and
`high` around `value`, the ends included when `closed`. -/
structure Interval where
  low : Nat
  value : Nat
  high : Nat
  unit : Nat
  closed : Bool
deriving DecidableEq, Repr

namespace Interval

/-- The interval of a float of the given magnitude. It is counted in quarters of the last bit, since
below a power of two the neighbouring floats are twice as close. -/
def ofDyadic (x : Dyadic) : Interval :=
  let m := x.significand
  let scale := Nat.pow 2 (x.exponent - 2).toNat
  let below := if m = Dyadic.fractionUnit ∧ Dyadic.leastExponent < x.exponent then 1 else 2
  { low := (4 * m - below) * scale
    value := 4 * m * scale
    high := (4 * m + 2) * scale
    unit := Nat.pow 2 (2 - x.exponent).toNat
    closed := m % 2 = 0 }

/-- The interval measured on the grid of multiples of `10 ^ e`, one grid step being `unit` long. -/
def onGrid (i : Interval) (e : Int) : Interval :=
  let fine := Nat.pow 10 (-e).toNat
  { i with
    low := i.low * fine
    value := i.value * fine
    high := i.high * fine
    unit := i.unit * Nat.pow 10 e.toNat }

/-- Whether the grid point `c` lies in the interval. -/
def holds (i : Interval) (c : Nat) : Bool :=
  if i.closed then i.low ≤ c * i.unit && c * i.unit ≤ i.high
  else i.low < c * i.unit && c * i.unit < i.high

/-- The nearer of the grid points `c` and `c + 1` around the value. -/
def nearer (i : Interval) (tie : Tie) (c : Nat) : Nat :=
  let twice := 2 * i.value
  let middle := (2 * c + 1) * i.unit
  if twice < middle then c
  else if middle < twice then c + 1
  else
    match tie with
    | .up => c + 1
    | .toEven => if c % 2 = 0 then c else c + 1

/-- The grid point to write: the nearest one in the interval, if either neighbour of the value lies
in it. -/
def pick? (i : Interval) (tie : Tie) : Option Nat :=
  let c := i.value / i.unit
  match i.holds c, i.holds (c + 1) with
  | true, true => some (i.nearer tie c)
  | true, false => some c
  | false, true => some (c + 1)
  | false, false => none

/-- An exponent whose power of ten lies above the whole interval. -/
def topExponent (i : Interval) : Int :=
  ((i.high.log2 : Int) + 1 - i.unit.log2) * 30103 / 100000 + 1

end Interval

/-- Tries ever finer grids, from `10 ^ e` down. A double needs at most seventeen digits, which the
starting grid and the number of tries allow for. -/
def search (i : Interval) (tie : Tie) : Nat → Int → Decimal
  | 0, e => ⟨(i.onGrid e).value / (i.onGrid e).unit, e⟩
  | tries + 1, e =>
    match (i.onGrid e).pick? tie with
    | some c => ⟨c, e⟩
    | none => search i tie tries (e - 1)

/-- **The shortest decimal that reads back** as a float of this magnitude. -/
def shortest (tie : Tie) (x : Dyadic) : Decimal :=
  let i := Interval.ofDyadic x
  search i tie 25 i.topExponent

end Decimal

end ChartCompiler
