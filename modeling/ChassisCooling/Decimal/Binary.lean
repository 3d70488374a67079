/-! # Binary fractions

A finite double is a whole number times a power of two. Everything printed about a double is
computed from that exact value, in whole numbers.
-/

namespace ChassisCooling.Decimal

/-- The exact value of a finite double without its sign: `significand * 2 ^ exponent`. -/
structure Binary where
  significand : Nat
  exponent : Int
  /-- The doubles below are half as far away as those above. -/
  lowerGapHalved : Bool
deriving DecidableEq

/-- The bit above the fraction of a double, 2 to the power 52. Only the smallest doubles lack it. -/
def hiddenBit : Nat := 4503599627370496

/-- The bit for the sign of a double, 2 to the power 63. -/
def signBit : Nat := 9223372036854775808

/-- The value of a double without its sign; nothing for an infinity or a NaN. -/
def Binary.ofFloat? (x : Float) : Option Binary :=
  let bits : Nat := x.toBits.toNat
  let fraction : Nat := bits % hiddenBit
  let biased : Nat := bits / hiddenBit % 2048
  if biased = 2047 then none
  else if biased = 0 then some ⟨fraction, -1074, false⟩
  else some ⟨hiddenBit + fraction, (biased : Int) - 1075, fraction = 0 && 1 < biased⟩

/-- A double has its sign bit set. -/
def isNegative (x : Float) : Bool :=
  x.toBits.toNat / signBit = 1

/-- `a * 2 ^ e` as a fraction of whole numbers. -/
def scaled (a : Nat) (e : Int) : Nat × Nat :=
  match e with
  | .ofNat e => (a <<< e, 1)
  | .negSucc e => (a, 1 <<< (e + 1))

end ChassisCooling.Decimal
