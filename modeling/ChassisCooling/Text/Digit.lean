/-! # Decimal digits

The Unicode general category Nd, and whole numbers written with the digits 0 to 9.
-/

namespace ChassisCooling.Text

/-- The zeros of the general category Nd. Each begins a run of ten digits, 0 to 9 in order. -/
def decimalZeros : List Nat :=
  [0x30, 0x660, 0x6F0, 0x7C0, 0x966, 0x9E6, 0xA66, 0xAE6, 0xB66, 0xBE6, 0xC66, 0xCE6, 0xD66,
   0xDE6, 0xE50, 0xED0, 0xF20, 0x1040, 0x1090, 0x17E0, 0x1810, 0x1946, 0x19D0, 0x1A80, 0x1A90,
   0x1B50, 0x1BB0, 0x1C40, 0x1C50, 0xA620, 0xA8D0, 0xA900, 0xA9D0, 0xA9F0, 0xAA50, 0xABF0,
   0xFF10, 0x104A0, 0x10D30, 0x10D40, 0x11066, 0x110F0, 0x11136, 0x111D0, 0x112F0, 0x11450,
   0x114D0, 0x11650, 0x116C0, 0x116D0, 0x116DA, 0x11730, 0x118E0, 0x11950, 0x11BF0, 0x11C50,
   0x11D50, 0x11DA0, 0x11F50, 0x16130, 0x16A60, 0x16AC0, 0x16B50, 0x16D70, 0x1CCF0, 0x1D7CE,
   0x1D7D8, 0x1D7E2, 0x1D7EC, 0x1D7F6, 0x1E140, 0x1E2F0, 0x1E4F0, 0x1E5F1, 0x1E950, 0x1FBF0]

/-- A decimal digit of any script. -/
def isDecimalDigit (c : Char) : Bool :=
  decimalZeros.any fun first => first ≤ c.toNat && c.toNat ≤ first + 9

/-- The digits of a number, with no leading zero. -/
def digits (n : Nat) : List Char :=
  Nat.toDigits 10 n

/-- The number that a list of digits 0 to 9 writes. -/
def digitsValue (ds : List Char) : Nat :=
  Nat.ofDigitChars 10 ds 0

/-- One or more digits 0 to 9, and nothing else, as a number. -/
def readDigits? (text : List Char) : Option Nat :=
  if text.isEmpty || !text.all Char.isDigit then none else some (digitsValue text)

/-- A whole number that may have a plus sign. -/
def readUnsigned? : List Char → Option Nat
  | '+' :: rest => readDigits? rest
  | text => readDigits? text

/-- A whole number that may have a sign. -/
def readSigned? : List Char → Option Int
  | '-' :: rest => (readDigits? rest).map fun n => -(n : Int)
  | text => (readUnsigned? text).map fun n => (n : Int)

/-- A number with zeros in front, to a least width. -/
def zeroPadded (width n : Nat) : List Char :=
  let ds := digits n
  List.replicate (width - ds.length) '0' ++ ds

/-- The text of a whole number, with a minus sign if it is negative. -/
def integerText (n : Int) : List Char :=
  match n with
  | .ofNat n => digits n
  | .negSucc n => '-' :: digits (n + 1)

/-- A text filled up with blanks on its left, to a least width. -/
def padLeft (width : Nat) (text : List Char) : List Char :=
  List.replicate (width - text.length) ' ' ++ text

/-- A text filled up with blanks on its right, to a least width. -/
def padRight (width : Nat) (text : List Char) : List Char :=
  text ++ List.replicate (width - text.length) ' '

end ChassisCooling.Text
