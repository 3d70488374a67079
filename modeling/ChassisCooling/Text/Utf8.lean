/-! # UTF-8

Bytes to characters and back. Reading is strict: overlong forms, surrogates and code points above
U+10FFFF are refused, so every accepted byte sequence is the encoding of exactly one text. A scan
reads any bytes, and tells where they are no text.
-/

namespace ChassisCooling.Text.Utf8

/-- A character of several bytes of which some have been read. -/
structure Partial where
  /-- The bits read so far. -/
  code : Nat
  /-- How many bytes are still to come. -/
  missing : Nat
  /-- The least byte that may come next. -/
  least : UInt8
  /-- The greatest byte that may come next. -/
  greatest : UInt8

/-- A reader between two bytes: the characters read, newest first, and the one begun. -/
structure Reader where
  read : List Char
  begun : Option Partial

/-- A lead byte fixes the length of its character and the range of the byte after it. -/
def lead (byte : UInt8) : Option Partial :=
  let bits := byte.toNat
  if 0xC2 ≤ byte && byte ≤ 0xDF then some ⟨bits - 0xC0, 1, 0x80, 0xBF⟩
  else if byte = 0xE0 then some ⟨0, 2, 0xA0, 0xBF⟩
  else if byte = 0xED then some ⟨0xD, 2, 0x80, 0x9F⟩
  else if 0xE1 ≤ byte && byte ≤ 0xEF then some ⟨bits - 0xE0, 2, 0x80, 0xBF⟩
  else if byte = 0xF0 then some ⟨0, 3, 0x90, 0xBF⟩
  else if 0xF1 ≤ byte && byte ≤ 0xF3 then some ⟨bits - 0xF0, 3, 0x80, 0xBF⟩
  else if byte = 0xF4 then some ⟨4, 3, 0x80, 0x8F⟩
  else none

/-- One byte of input; nothing when it cannot stand where it is. -/
def Reader.step (reader : Reader) (byte : UInt8) : Option Reader :=
  match reader.begun with
  | none =>
    if byte < 0x80 then some { reader with read := Char.ofNat byte.toNat :: reader.read }
    else (lead byte).map fun begun => { reader with begun := some begun }
  | some begun =>
    if begun.least ≤ byte && byte ≤ begun.greatest then
      let code := begun.code * 64 + (byte.toNat - 0x80)
      if begun.missing ≤ 1 then some ⟨Char.ofNat code :: reader.read, none⟩
      else some { reader with begun := some ⟨code, begun.missing - 1, 0x80, 0xBF⟩ }
    else none

/-- The text that the bytes encode, if they are UTF-8. -/
def decode? (bytes : List UInt8) : Option (List Char) :=
  (bytes.foldlM Reader.step ⟨[], none⟩).bind fun reader =>
    if reader.begun.isNone then some reader.read.reverse else none

/-- The text that the bytes encode, as a string. -/
def decodeString? (bytes : List UInt8) : Option String :=
  (decode? bytes).map String.ofList

/-! ## Bytes that need not be text -/

/-- A reader that passes over what is no text: the symbols read, newest first, with nothing in the
place of each broken piece, and the character begun. -/
structure Scanner where
  read : List (Option Char)
  begun : Option Partial

/-- One byte of input. A byte that cannot go on with the character begun breaks that character off,
and may begin another one. -/
def Scanner.step (scanner : Scanner) (byte : UInt8) : Scanner :=
  let goOn (read : List (Option Char)) (begun : Option Partial) : Option Scanner :=
    (Reader.step ⟨[], begun⟩ byte).map fun reader => ⟨reader.read.map some ++ read, reader.begun⟩
  let broken := none :: scanner.read
  match goOn scanner.read scanner.begun with
  | some next => next
  | none =>
    if scanner.begun.isNone then ⟨broken, none⟩
    else (goOn broken none).getD ⟨none :: broken, none⟩

/-- The characters of some bytes, and nothing for each longest piece that begins no character or
breaks one off. -/
def symbols (bytes : List UInt8) : List (Option Char) :=
  let scanner := bytes.foldl Scanner.step ⟨[], none⟩
  (if scanner.begun.isNone then scanner.read else none :: scanner.read).reverse

/-! ## Writing -/

/-- The bytes of a text. -/
def encode (text : List Char) : List UInt8 :=
  text.flatMap String.utf8EncodeChar

/-- The bytes of a string. -/
def encodeString (text : String) : List UInt8 :=
  encode text.toList

end ChassisCooling.Text.Utf8
