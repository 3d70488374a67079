import ChassisCooling.Json.Basic
import ChassisCooling.Text.Utf8

/-! # Reading JSON

A document is read one character at a time. Between two characters the reader holds the containers
still open, what may come next, and the string, number or word that has begun. Every step is total,
and reading a text is a fold of the step over its characters.
-/

namespace ChassisCooling.Json

/-- A container that is still open, with its parts newest first. -/
inductive Frame where
  | array (items : List Json)
  | object (members : List (Option String × Json))
  /-- An object whose member of this key is being read. -/
  | member (members : List (Option String × Json)) (key : Option String)

/-- What may come next. -/
inductive Awaiting where
  | value
  | itemOrClose
  | keyOrClose
  | key
  | colon
  | commaOrClose

/-- The characters of a string literal, newest first. -/
structure Literal where
  chars : List Char
  /-- The first half of a surrogate pair, if the last escape wrote one. -/
  high : Option Nat
  /-- Half of a pair on its own, or bytes that are no text, stand somewhere before. -/
  broken : Bool

namespace Literal

/-- An opened literal. -/
def empty : Literal :=
  ⟨[], none, false⟩

/-- Adds a character. -/
def push (l : Literal) (c : Char) : Literal :=
  ⟨c :: l.chars, none, l.broken || l.high.isSome⟩

/-- Adds the sixteen bits of an escape. -/
def pushUnit (l : Literal) (unit : Nat) : Literal :=
  if 0xD800 ≤ unit ∧ unit < 0xDC00 then
    { l with high := some unit, broken := l.broken || l.high.isSome }
  else if 0xDC00 ≤ unit ∧ unit < 0xE000 then
    match l.high with
    | some high =>
      { l with
        chars := Char.ofNat (0x10000 + (high - 0xD800) * 0x400 + (unit - 0xDC00)) :: l.chars,
        high := none }
    | none => { l with broken := true }
  else l.push (Char.ofNat unit)

/-- Adds bytes that are no text. -/
def breakOff (l : Literal) : Literal :=
  { l with broken := true }

/-- The text of a closed literal. -/
def close (l : Literal) : Option String :=
  if l.broken || l.high.isSome then none else some (String.ofList l.chars.reverse)

end Literal

/-- The string, number or word that has begun. -/
inductive Lexeme where
  | none
  | literal (l : Literal)
  /-- After a backslash. -/
  | escape (l : Literal)
  /-- Inside an escape of four hexadecimal digits, of which `left` are to come. -/
  | unit (l : Literal) (left : Nat) (value : Nat)
  /-- The characters of a number, newest first. -/
  | numeral (chars : List Char)
  /-- The letters of a word that are to come, and its value. -/
  | word (rest : List Char) (value : Json)

/-- The reader between two characters. -/
structure Reader where
  frames : List Frame
  awaiting : Awaiting
  lexeme : Lexeme
  /-- The whole document, once it is read. -/
  document : Option Json

namespace Reader

/-- Before the first character. -/
def start : Reader :=
  ⟨[], .value, .none, none⟩

/-- A value is complete: it goes to the innermost open container, or it is the document. -/
def deliver (r : Reader) (value : Json) : Reader :=
  match r.frames with
  | [] => { r with lexeme := .none, awaiting := .commaOrClose, document := some value }
  | .array items :: frames =>
    { r with
      lexeme := .none
      awaiting := .commaOrClose
      frames := .array (value :: items) :: frames }
  | .member members key :: frames =>
    { r with
      lexeme := .none, awaiting := .commaOrClose,
      frames := .object ((key, value) :: members) :: frames }
  | .object _ :: _ => r

/-- A value may start here. -/
def canStart (r : Reader) : Bool :=
  match r.awaiting with
  | .value | .itemOrClose => r.document.isNone
  | _ => false

/-- A key may start here. -/
def canStartKey (r : Reader) : Bool :=
  match r.awaiting with
  | .key | .keyOrClose => true
  | _ => false

/-- Opens a container. -/
def openFrame (r : Reader) (frame : Frame) (awaiting : Awaiting) : Option Reader :=
  if r.canStart then some { r with frames := frame :: r.frames, awaiting } else none

/-- Closes the innermost array. -/
def closeArray (r : Reader) : Option Reader :=
  match r.awaiting, r.frames with
  | .itemOrClose, .array items :: frames
  | .commaOrClose, .array items :: frames =>
    some ({ r with frames }.deliver (.array items.reverse))
  | _, _ => none

/-- Closes the innermost object. -/
def closeObject (r : Reader) : Option Reader :=
  match r.awaiting, r.frames with
  | .keyOrClose, .object members :: frames
  | .commaOrClose, .object members :: frames =>
    some ({ r with frames }.deliver (.object members.reverse))
  | _, _ => none

/-- A comma between two items or two members. -/
def comma (r : Reader) : Option Reader :=
  match r.awaiting, r.frames with
  | .commaOrClose, .array _ :: _ => some { r with awaiting := .value }
  | .commaOrClose, .object _ :: _ => some { r with awaiting := .key }
  | _, _ => none

/-- A colon between a key and its value. -/
def colon (r : Reader) : Option Reader :=
  match r.awaiting with
  | .colon => some { r with awaiting := .value }
  | _ => none

/-- A string literal is closed: it is a key or a value. -/
def closeLiteral (r : Reader) (l : Literal) : Reader :=
  if r.canStartKey then
    match r.frames with
    | .object members :: frames =>
      { r with
        lexeme := .none, awaiting := .colon, frames := .member members l.close :: frames }
    | _ => r
  else r.deliver (.string l.close)

/-- Begins a word, a number or a string that is a value. -/
def begin (r : Reader) (lexeme : Lexeme) : Option Reader :=
  if r.canStart then some { r with lexeme } else none

/-- A character outside of strings, numbers and words. -/
def between (r : Reader) (c : Char) : Option Reader :=
  match c with
  | ' ' | '\t' | '\n' | '\r' => some r
  | '[' => r.openFrame (.array []) .itemOrClose
  | ']' => r.closeArray
  | '{' => r.openFrame (.object []) .keyOrClose
  | '}' => r.closeObject
  | ',' => r.comma
  | ':' => r.colon
  | '"' =>
    if r.canStartKey then some { r with lexeme := .literal .empty } else r.begin (.literal .empty)
  | 't' => r.begin (.word ['r', 'u', 'e'] (.bool true))
  | 'f' => r.begin (.word ['a', 'l', 's', 'e'] (.bool false))
  | 'n' => r.begin (.word ['u', 'l', 'l'] .null)
  | c => if c.isDigit || c == '-' then r.begin (.numeral [c]) else none

/-- The character that a one-letter escape stands for. -/
def escaped? : Char → Option Char
  | '"' => some '"'
  | '\\' => some '\\'
  | '/' => some '/'
  | 'b' => some '\x08'
  | 'f' => some '\x0c'
  | 'n' => some '\n'
  | 'r' => some '\r'
  | 't' => some '\t'
  | _ => none

/-- The value of a hexadecimal digit. -/
def hexDigit? (c : Char) : Option Nat :=
  if '0' ≤ c ∧ c ≤ '9' then some (c.toNat - '0'.toNat)
  else if 'a' ≤ c ∧ c ≤ 'f' then some (c.toNat - 'a'.toNat + 10)
  else if 'A' ≤ c ∧ c ≤ 'F' then some (c.toNat - 'A'.toNat + 10)
  else none

/-- One character of input; nothing when it cannot stand where it is. -/
def step (r : Reader) (c : Char) : Option Reader :=
  match r.lexeme with
  | .none => r.between c
  | .literal l =>
    if c == '"' then some (r.closeLiteral l)
    else if c == '\\' then some { r with lexeme := .escape l }
    else if c.toNat < 0x20 then none
    else some { r with lexeme := .literal (l.push c) }
  | .escape l =>
    if c == 'u' then some { r with lexeme := .unit l 4 0 }
    else (escaped? c).map fun e => { r with lexeme := .literal (l.push e) }
  | .unit l left value =>
    (hexDigit? c).map fun d =>
      let value := value * 16 + d
      if left ≤ 1 then { r with lexeme := .literal (l.pushUnit value) }
      else { r with lexeme := .unit l (left - 1) value }
  | .numeral chars =>
    if Numeral.isPart c then some { r with lexeme := .numeral (c :: chars) }
    else (Numeral.parse? chars.reverse).bind fun n => (r.deliver (.number n)).between c
  | .word rest value =>
    match rest with
    | [] => none
    | [last] => if c == last then some (r.deliver value) else none
    | next :: rest => if c == next then some { r with lexeme := .word rest value } else none

/-- A character, or bytes that are no text: these can only stand inside a string literal. -/
def symbol (r : Reader) : Option Char → Option Reader
  | some c => r.step c
  | none => match r.lexeme with
    | .literal l => some { r with lexeme := .literal l.breakOff }
    | _ => none

/-- The end of the input: nothing but a number may have begun, and no container may be open. -/
def finish (r : Reader) : Option Json :=
  match r.lexeme, r.frames with
  | .none, [] => r.document
  | .numeral chars, [] => (Numeral.parse? chars.reverse).map .number
  | _, _ => none

end Reader

/-- The document that a text writes, if it is one. -/
def read? (text : List Char) : Option Json :=
  (text.foldlM Reader.step Reader.start).bind Reader.finish

/-- The document that some bytes write, if they write one. -/
def readBytes? (bytes : List UInt8) : Option Json :=
  ((Text.Utf8.symbols bytes).foldlM Reader.symbol Reader.start).bind Reader.finish

end ChassisCooling.Json
