import ChassisCooling.Decimal.Binary

/-! # The shortest decimal of a double

The decimal with the fewest digits that reads back as the same double; among several of that
length the nearest one, and of two equally near ones the one with the even last digit.
-/

namespace ChassisCooling.Decimal

/-- A decimal `digits * 10 ^ exponent`. -/
structure Scientific where
  digits : Nat
  exponent : Int
deriving DecidableEq

/-- A value and the interval of values that read back as it, as whole numbers over one divisor. -/
structure Interval where
  low : Nat
  value : Nat
  high : Nat
  divisor : Nat
  /-- The two ends belong to the interval. -/
  closed : Bool

/-- The interval of a double. Its ends lie half-way to the neighbouring doubles and belong to it
when the significand is even, since reading breaks ties towards an even significand. -/
def Interval.ofBinary (b : Binary) : Interval :=
  let (value, divisor) := scaled (4 * b.significand) (b.exponent - 2)
  let (unit, _) := scaled 1 (b.exponent - 2)
  ⟨value - (if b.lowerGapHalved then unit else 2 * unit), value, value + 2 * unit, divisor,
    b.significand % 2 = 0⟩

/-- A value lies in the interval. -/
def Interval.holds (i : Interval) (n : Nat) : Bool :=
  if i.closed then i.low ≤ n && n ≤ i.high else i.low < n && n < i.high

/-- The interval with every number multiplied by a power of ten. -/
def Interval.scale (i : Interval) (power : Int) : Interval :=
  match power with
  | .ofNat p =>
    let factor := Nat.pow 10 p
    { i with low := i.low * factor, value := i.value * factor, high := i.high * factor }
  | .negSucc p => { i with divisor := i.divisor * Nat.pow 10 (p + 1) }

/-- The multiple of the divisor that lies in the interval and is nearest to the value, if one of
the two neighbours of the value does. -/
def Interval.nearest? (i : Interval) : Option Nat :=
  let below := i.value / i.divisor
  let rest := i.value % i.divisor
  let lower := i.holds (below * i.divisor)
  let upper := i.holds ((below + 1) * i.divisor)
  if lower && upper then
    if 2 * rest < i.divisor || (2 * rest = i.divisor && below % 2 = 0) then some below
    else some (below + 1)
  else if lower then some below
  else if upper then some (below + 1)
  else none

/-- The greatest exponent `e` below `start` with `10 ^ e` not above the value, tried downwards. -/
def decadeFrom (value divisor : Nat) (start : Int) : Nat → Int
  | 0 => start
  | fuel + 1 =>
    let reached : Bool := match start with
      | .ofNat e => Nat.pow 10 e * divisor ≤ value
      | .negSucc e => divisor ≤ value * Nat.pow 10 (e + 1)
    if reached then start else decadeFrom value divisor (start - 1) fuel

/-- The first grid of 1, 2, … digits with a point in the interval gives the decimal. -/
def shortestFrom (i : Interval) (decade : Int) (used : Nat) : Nat → Scientific
  | 0 => ⟨i.value / i.divisor, 0⟩
  | fuel + 1 =>
    let exponent := decade - used
    match (i.scale (-exponent)).nearest? with
    | some n => ⟨n, exponent⟩
    | none => shortestFrom i decade (used + 1) fuel

/-- A decimal without zeros at the end of its digits. -/
def Scientific.strip (d : Scientific) : Nat → Scientific
  | 0 => d
  | fuel + 1 =>
    if d.digits ≠ 0 ∧ d.digits % 10 = 0 then Scientific.strip ⟨d.digits / 10, d.exponent + 1⟩ fuel
    else d

/-- The shortest decimal of a positive double. -/
def shortest (b : Binary) : Scientific :=
  let i := Interval.ofBinary b
  let decade := decadeFrom i.value i.divisor 309 700
  (shortestFrom i decade 0 18).strip 20

end ChassisCooling.Decimal
