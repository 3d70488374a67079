/-! # Blanks and control characters

The Unicode property White_Space, the general category Cc, and trimming by the first of them.
-/

namespace ChassisCooling.Text

/-- The characters with the Unicode property White_Space. -/
def isBlank (c : Char) : Bool :=
  let n := c.toNat
  (0x9 ≤ n && n ≤ 0xD) || n == 0x20 || n == 0x85 || n == 0xA0 || n == 0x1680 ||
    (0x2000 ≤ n && n ≤ 0x200A) || n == 0x2028 || n == 0x2029 || n == 0x202F || n == 0x205F ||
    n == 0x3000

/-- The control characters: U+0000 to U+001F and U+007F to U+009F. -/
def isControl (c : Char) : Bool :=
  c.toNat < 0x20 || (0x7F ≤ c.toNat && c.toNat ≤ 0x9F)

/-- A text without its leading blanks. -/
def trimStart (text : List Char) : List Char :=
  text.dropWhile isBlank

/-- A text without its trailing blanks. -/
def trimEnd (text : List Char) : List Char :=
  (text.reverse.dropWhile isBlank).reverse

/-- A text without the blanks at its two ends. -/
def trim (text : List Char) : List Char :=
  trimEnd (trimStart text)

/-- A string without the blanks at its two ends. -/
def trimString (text : String) : String :=
  String.ofList (trim text.toList)

/-- A letter A to Z becomes the small letter; every other character stays. -/
def lowerAscii (c : Char) : Char :=
  if 'A' ≤ c && c ≤ 'Z' then Char.ofNat (c.toNat + 32) else c

/-- Two strings are the same when the case of the letters A to Z is ignored. -/
def equalIgnoringAsciiCase (a b : String) : Bool :=
  a.toList.map lowerAscii == b.toList.map lowerAscii

/-- A text occurs somewhere in another. -/
def occursIn (needle : List Char) : List Char → Bool
  | [] => needle.isEmpty
  | c :: rest => needle.isPrefixOf (c :: rest) || occursIn needle rest

end ChassisCooling.Text
