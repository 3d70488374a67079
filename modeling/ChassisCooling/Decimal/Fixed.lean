import ChassisCooling.Decimal.Binary
import ChassisCooling.Text.Digit

/-! # A double with a fixed number of decimal places -/

namespace ChassisCooling.Decimal

/-- A quotient rounded to the nearest whole number; a half goes to the even neighbour. -/
def roundHalfEven (numerator divisor : Nat) : Nat :=
  let below := numerator / divisor
  let rest := numerator % divisor
  if 2 * rest < divisor || (2 * rest = divisor && below % 2 = 0) then below else below + 1

/-- A double with its sign and the given number of decimal places, rounded from its exact value.
The sign is that of the double, also where the digits are zeros. -/
def signedFixed (places : Nat) (x : Float) : List Char :=
  match Binary.ofFloat? x with
  | none =>
    if x.isNaN then ['N', 'a', 'N'] else (if isNegative x then '-' else '+') :: ['i', 'n', 'f']
  | some b =>
    let (numerator, divisor) := scaled b.significand b.exponent
    let one := Nat.pow 10 places
    let units := roundHalfEven (numerator * one) divisor
    let whole := Text.digits (units / one)
    let fraction := Text.zeroPadded places (units % one)
    (if isNegative x then '-' else '+') :: whole ++ (if places = 0 then [] else '.' :: fraction)

end ChassisCooling.Decimal
