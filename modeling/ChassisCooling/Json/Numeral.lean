import ChassisCooling.Decimal.Shortest
import ChassisCooling.Text.Digit

/-! # Numbers as a document writes them

A number keeps its written form, so that reading and writing a document lose nothing. What the
number means (a whole number of some width, or a double) is decided where it is used.
-/

namespace ChassisCooling.Json

/-- The written form of a number: digits before the point, after it, and the power of ten. -/
structure Numeral where
  negative : Bool
  whole : List Char
  /-- Empty when there is no point. -/
  fraction : List Char
  exponent : Option Int
deriving DecidableEq

namespace Numeral

/-- The characters that can stand in a number. -/
def isPart (c : Char) : Bool :=
  c.isDigit || c == '+' || c == '-' || c == '.' || c == 'e' || c == 'E'

/-- Digits before the point: a single zero, or digits of which the first is not zero. -/
def isWhole : List Char → Bool
  | [] => false
  | ['0'] => true
  | c :: _ => c != '0'

/-- The power of ten at the end of a number; nothing may follow it. -/
def readExponent? : List Char → Option (Option Int)
  | [] => some none
  | mark :: rest =>
    if mark == 'e' || mark == 'E' then (Text.readSigned? rest).map some else none

/-- The number of a given sign that a run of characters writes. -/
def parseUnsigned? (negative : Bool) (text : List Char) : Option Numeral :=
  let (whole, text) := text.span Char.isDigit
  if isWhole whole then
    match text with
    | '.' :: rest =>
      let (fraction, rest) := rest.span Char.isDigit
      if fraction.isEmpty then none
      else (readExponent? rest).map fun exponent => ⟨negative, whole, fraction, exponent⟩
    | rest => (readExponent? rest).map fun exponent => ⟨negative, whole, [], exponent⟩
  else none

/-- The number that a run of characters writes. -/
def parse? : List Char → Option Numeral
  | '-' :: rest => parseUnsigned? true rest
  | text => parseUnsigned? false text

/-- The power of ten at the end of a number, with a sign. -/
def exponentText : Option Int → List Char
  | none => []
  | some (.ofNat e) => 'e' :: '+' :: Text.digits e
  | some (.negSucc e) => 'e' :: '-' :: Text.digits (e + 1)

/-- The written form: a point only before digits. -/
def text (n : Numeral) : List Char :=
  (if n.negative then ['-'] else []) ++ n.whole ++
    (if n.fraction.isEmpty then [] else '.' :: n.fraction) ++ exponentText n.exponent

/-! ## Whole numbers -/

/-- The written form of a whole number. -/
def ofInt (n : Int) : Numeral :=
  ⟨n < 0, Text.digits n.natAbs, [], none⟩

/-- The number of values that 64 bits have, 2 to the power 64. -/
def wordCount : Nat := 18446744073709551616

/-- The number is written as a whole number of at most 64 bits. A minus sign before zero is not the
form of a whole number, and larger numbers are read as doubles. -/
def toInt? (n : Numeral) : Option Int :=
  if n.fraction.isEmpty && n.exponent.isNone then
    let value := Text.digitsValue n.whole
    if n.negative then
      if value ≠ 0 ∧ value ≤ 9223372036854775808 then some (-(value : Int)) else none
    else if value < wordCount then some value
    else none
  else none

/-! ## Doubles -/

/-- A decimal being read: as many leading digits as fit 64 bits, and a power of ten. -/
structure Scaled where
  significand : Nat
  power : Int

/-- Digits before the point. Once a digit does not fit, it and those after it count as powers. -/
def Scaled.readWhole (s : Scaled) : List Char → Scaled
  | [] => s
  | d :: rest =>
    let next := s.significand * 10 + (d.toNat - '0'.toNat)
    if next < wordCount then Scaled.readWhole { s with significand := next } rest
    else { s with power := s.power + (rest.length + 1 : Nat) }

/-- Digits after the point. Once a digit does not fit, it and those after it are dropped. -/
def Scaled.readFraction (s : Scaled) : List Char → Scaled
  | [] => s
  | d :: rest =>
    let next := s.significand * 10 + (d.toNat - '0'.toNat)
    if next < wordCount then Scaled.readFraction ⟨next, s.power - 1⟩ rest else s

/-- A power of ten as a double. -/
def powerOfTen (n : Nat) : Float :=
  Float.ofScientific 1 false n

/-- The double of a scaled decimal: the significand is rounded first, then multiplied or divided
by one power of ten up to 308 at a time. Nothing when it is too large for a double. -/
def Scaled.toFloat? (s : Scaled) : Option Float :=
  let base := (UInt64.ofNat s.significand).toFloat
  match s.power with
  | .ofNat p =>
    if s.significand = 0 then some base
    else if p ≤ 308 then
      let product := base * powerOfTen p
      if product.isInf then none else some product
    else none
  | .negSucc p =>
    let q := p + 1
    if q ≤ 308 then some (base / powerOfTen q)
    else if q ≤ 616 then some (base / powerOfTen 308 / powerOfTen (q - 308))
    else if q ≤ 924 then
      some (base / powerOfTen 308 / powerOfTen 308 / powerOfTen (q - 616))
    else some 0.0

/-- The double that the number is read as; nothing when it is too large for one. -/
def toFloat? (n : Numeral) : Option Float :=
  match n.toInt? with
  | some (.ofNat value) => some (UInt64.ofNat value).toFloat
  | some (.negSucc value) => some (-(UInt64.ofNat (value + 1)).toFloat)
  | none =>
    let s := (Scaled.readWhole ⟨0, 0⟩ n.whole).readFraction n.fraction
    let s := { s with power := s.power + n.exponent.getD 0 }
    s.toFloat?.map fun x => if n.negative then -x else x

/-- The number can be kept as a value: it is a whole number of 64 bits or a finite double. -/
def isRepresentable (n : Numeral) : Bool :=
  n.toFloat?.isSome

/-- The written form of a decimal: positional from 0.00001 up to 16 digits before the point, with
an exponent elsewhere, and always with a point or an exponent. -/
def ofDecimal (negative : Bool) (d : Decimal.Scientific) : Numeral :=
  let ds := Text.digits d.digits
  let point : Int := ds.length + d.exponent
  if 0 ≤ d.exponent ∧ point ≤ 16 then
    ⟨negative, ds ++ List.replicate d.exponent.toNat '0', ['0'], none⟩
  else if 0 < point ∧ point ≤ 16 then
    ⟨negative, ds.take point.toNat, ds.drop point.toNat, none⟩
  else if -5 < point ∧ point ≤ 0 then
    ⟨negative, ['0'], List.replicate (-point).toNat '0' ++ ds, none⟩
  else ⟨negative, ds.take 1, ds.drop 1, some (point - 1)⟩

/-- The shortest written form of a double; nothing for an infinity or a NaN. -/
def ofFloat? (x : Float) : Option Numeral :=
  (Decimal.Binary.ofFloat? x).map fun b =>
    let negative := Decimal.isNegative x
    if b.significand = 0 then ⟨negative, ['0'], ['0'], none⟩
    else ofDecimal negative (Decimal.shortest b)

end Numeral

end ChassisCooling.Json
